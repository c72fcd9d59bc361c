import BnkForge.Graph.Layers
import BnkForge.Graph.Sorting
import BnkForge.Lib.Peeling

/-!
# The canonical layers

`_kahn_layers` places a module right behind the last of its dependencies in the working set, as
`_compute_layers` (`backend/utils/dependency_graph.py:312–331`) does, and
`build_layers_for_modules` (`backend/services/dependency_graph_service.py:390–426`) reverses the layers
for a destruction.
-/

namespace BnkForge.Graph

open Peeling List

def inSet (ms : List GraphModule) (x : Nat) : List Nat :=
  match ms.find? (·.id == x) with
  | some m => m.dependencies.filter (moduleIds ms).contains
  | none => []

/-- `build_layers_for_modules`. -/
def buildLayersForModules (ms : List GraphModule) (reverse : Bool) : Except String (List (List Nat)) :=
  (kahnLayers ms).map fun layers ↦ if reverse then layers.reverse else layers

/-- `0 if not deps else max(layer_of(dep) for dep in deps) + 1`, with the layers that are known after it. -/
def deepest (search : List (Nat × Nat) → Nat → Except SearchError (Nat × List (Nat × Nat)))
    (layers : List (Nat × Nat)) : List Nat → Except SearchError (Nat × List (Nat × Nat))
  | [] => .ok (0, layers)
  | dep :: deps =>
    match search layers dep with
    | .error e => .error e
    | .ok (layer, layers) =>
      match deepest search layers deps with
      | .error e => .error e
      | .ok (rest, layers) => .ok (max (layer + 1) rest, layers)

/-- `layer_of`, with the number of nested calls that Python still allows. -/
def layerOf (deps : DependencyMap) :
    Nat → List (Nat × Nat) → Nat → Except SearchError (Nat × List (Nat × Nat))
  | 0, _, _ => .error .recursion
  | limit + 1, layers, mid =>
    match layers.lookup mid with
    | some layer => .ok (layer, layers)
    | none =>
      match deepest (layerOf deps limit) layers (neighbors deps mid) with
      | .error e => .error e
      | .ok (layer, layers) => .ok (layer, (mid, layer) :: layers)

/-- `_compute_layers`; the ids are gone through in the order of the set. -/
def computeLayers (limit : Nat) (ids : List Nat) (deps : DependencyMap) :
    Except SearchError (List (Nat × Nat)) :=
  ids.foldlM (fun layers mid ↦ (layerOf deps limit layers mid).map Prod.snd) []

/-- `dependencies` of `get_dependency_graph`: the lists without the modules that are not in the graph. -/
def graphMap (ms : List GraphModule) : DependencyMap :=
  ms.map fun m ↦ (m.id, m.dependencies.filter (moduleIds ms).contains)

/-- The layers in the payload of `get_dependency_graph`. -/
def graphLayers (limit : Nat) (set : SetOrder) (ms : List GraphModule) :
    Except SearchError (List (Nat × Nat)) :=
  match detectCircularDependencies limit (graphMap ms) with
  | .error e => .error e
  | .ok (some _) => .ok []
  | .ok none => computeLayers limit (set.order (moduleIds ms)) (graphMap ms)

/-- The layers that the search has found when its queue is empty. -/
def placedLayers (ms : List GraphModule) : List (List Nat) := (layersFrom ms ms.length (seed ms)).1

section

variable {ms : List GraphModule} {popped : List Nat} {f : Frontier} {m : GraphModule} {x d : Nat}

theorem find_eq (hnodup : (moduleIds ms).Nodup) (hm : m ∈ ms) : ms.find? (·.id == m.id) = some m := by
  cases hfind : ms.find? (·.id == m.id) with
  | none => exact absurd (beq_self_eq_true m.id) (find?_eq_none.mp hfind m hm)
  | some m' =>
    have hid : m'.id = m.id := by simpa using find?_some hfind
    rw [inj_on_of_nodup_map hnodup (mem_of_find?_eq_some hfind) hm hid]

theorem mem_inSet_iff (hnodup : (moduleIds ms).Nodup) (hm : m ∈ ms) :
    d ∈ inSet ms m.id ↔ d ∈ m.dependencies ∧ d ∈ moduleIds ms := by
  rw [inSet, find_eq hnodup hm]
  simp only [mem_filter, contains_eq_mem, decide_eq_true_eq]

theorem mem_ids_of_mem_inSet (h : d ∈ inSet ms x) : d ∈ moduleIds ms ∧ x ∈ moduleIds ms := by
  unfold inSet at h
  split at h
  · next m hfind =>
    have hid : m.id = x := by simpa using find?_some hfind
    rw [mem_filter, contains_eq_mem, decide_eq_true_eq] at h
    exact ⟨h.2, hid ▸ mem_map_of_mem (mem_of_find?_eq_some hfind)⟩
  · cases h

theorem openEdges_eq_zero_iff (hnodup : (moduleIds ms).Nodup) (hm : m ∈ ms) :
    openEdges ms popped m = 0 ↔ ∀ d ∈ inSet ms m.id, d ∈ popped := by
  rw [openEdges, countP_eq_zero]
  simp only [mem_inSet_iff hnodup hm, Bool.and_eq_true, Bool.not_eq_true', contains_eq_mem,
    decide_eq_true_eq, decide_eq_false_iff_not, not_and, not_not, and_imp]

theorem Searching.mem_queue (hnodup : (moduleIds ms).Nodup) (h : Searching ms popped [] f) :
    x ∈ f.queue ↔ x ∈ moduleIds ms ∧ x ∉ popped ∧ ∀ d ∈ inSet ms x, d ∈ popped := by
  have hnd := h.nodup
  have hfree := h.free
  have hsub := h.subset
  rw [append_nil] at hnd hfree hsub
  constructor
  · intro hx
    obtain ⟨m, hm, rfl⟩ := mem_map.mp (hsub x (mem_append_right _ hx))
    refine ⟨mem_map_of_mem hm, fun hp ↦ (nodup_append.mp hnd).2.2 _ hp _ hx rfl, ?_⟩
    rw [← openEdges_eq_zero_iff hnodup hm, ← h.inDegree m hm]
    exact (hfree m hm).mpr (mem_append_right _ hx)
  · rintro ⟨hids, hnew, hdeps⟩
    obtain ⟨m, hm, rfl⟩ := mem_map.mp hids
    rw [← openEdges_eq_zero_iff hnodup hm, ← h.inDegree m hm, hfree m hm] at hdeps
    exact (mem_append.mp hdeps).resolve_left hnew

theorem Searching.peels (hnodup : (moduleIds ms).Nodup) (n : Nat) (h : Searching ms popped [] f) :
    Peels (moduleIds ms) (inSet ms) popped (Graph.layersFrom ms n f).1 := by
  induction n generalizing popped f with
  | zero => trivial
  | succ n ih =>
    unfold Graph.layersFrom
    split
    · trivial
    · exact ⟨fun x ↦ h.mem_queue hnodup, ih (h.popLayer hnodup)⟩

theorem peels_placedLayers (hnodup : (moduleIds ms).Nodup) :
    Peels (moduleIds ms) (inSet ms) [] (placedLayers ms) := (searching_seed hnodup).peels hnodup _

theorem placed_spec (hnodup : (moduleIds ms).Nodup) :
    (placedLayers ms).flatten.Nodup ∧ (∀ x ∈ (placedLayers ms).flatten, x ∈ moduleIds ms) ∧
      ∀ x ∈ moduleIds ms, (∀ d ∈ inSet ms x, d ∈ (placedLayers ms).flatten) →
        x ∈ (placedLayers ms).flatten := by
  obtain ⟨hend, hstop⟩ := (searching_seed hnodup).layersFrom hnodup ms.length (by simp)
  rw [nil_append] at hend hstop
  have hnd := hend.nodup
  rw [append_nil] at hnd
  have hplaced := (nodup_append.mp hnd).1
  have hsub : ∀ x ∈ (placedLayers ms).flatten, x ∈ moduleIds ms := fun x hx ↦
    hend.subset x (mem_append_left _ (mem_append_left _ hx))
  refine ⟨hplaced, hsub, fun x hx hdeps ↦ ?_⟩
  rcases hstop with hqueue | hcount
  · by_contra hnew
    have hin := (hend.mem_queue hnodup).mpr ⟨hx, hnew, hdeps⟩
    rw [hqueue] at hin
    cases hin
  · have hlen : (moduleIds ms).length = ms.length := length_map ..
    exact ((hplaced.subperm hsub).perm_of_length_le (hlen ▸ hcount)).mem_iff.mpr hx

theorem mem_placed_iff (hnodup : (moduleIds ms).Nodup) :
    x ∈ (placedLayers ms).flatten ↔ x ∈ moduleIds ms ∧ Acc (Below (inSet ms)) x := by
  obtain ⟨-, hsub, hleft⟩ := placed_spec hnodup
  exact ⟨fun hx ↦ ⟨hsub x hx, (peels_placedLayers hnodup).acc hx⟩, fun ⟨hx, hacc⟩ ↦
    mem_of_acc (fun y _ d hd ↦ (mem_ids_of_mem_inSet hd).1) hleft hacc hx⟩

theorem kahnLayers_eq_ok_iff (hnodup : (moduleIds ms).Nodup) {layers : List (List Nat)} :
    kahnLayers ms = .ok layers ↔ layers = placedLayers ms ∧ layers.flatten.Perm (moduleIds ms) := by
  obtain ⟨hnd, hsub, -⟩ := placed_spec hnodup
  have hlen : (moduleIds ms).length = ms.length := length_map ..
  have hperm : (placedLayers ms).flatten.Perm (moduleIds ms) ↔
      ¬ (placedLayers ms).flatten.length < ms.length := by
    rw [Nat.not_lt]
    exact ⟨fun h ↦ (hlen.symm.trans h.length_eq.symm).le, fun h ↦
      (hnd.subperm hsub).perm_of_length_le (hlen ▸ h)⟩
  by_cases hempty : ms = []
  · subst hempty
    constructor
    · rintro ⟨⟩
      exact ⟨rfl, .refl _⟩
    · rintro ⟨rfl, -⟩
      rfl
  · have heq : kahnLayers ms = if (placedLayers ms).flatten.length < ms.length then
        .error ("Circular dependency detected among modules: " ++ ", ".intercalate
          (((ms.filter fun m ↦ 0 < (layersFrom ms ms.length (seed ms)).2.inDegree m.id).map
            GraphModule.cycleName).mergeSort))
        else .ok (placedLayers ms) := by
      rw [kahnLayers, if_neg hempty]
      rfl
    rw [heq]
    split
    · next hlt =>
      constructor
      · intro h
        cases h
      · intro h
        exact absurd hlt (hperm.mp (h.1 ▸ h.2))
    · next hle =>
      constructor
      · rintro ⟨⟩
        exact ⟨rfl, hperm.mpr hle⟩
      · rintro ⟨rfl, -⟩
        rfl

theorem kahnLayers_ok_iff (hnodup : (moduleIds ms).Nodup) :
    (∃ layers, kahnLayers ms = .ok layers) ↔ ∀ x, ¬ Relation.TransGen (Below (inSet ms)) x x := by
  obtain ⟨hnd, hsub, -⟩ := placed_spec hnodup
  simp only [kahnLayers_eq_ok_iff hnodup, exists_eq_left]
  constructor
  · intro hperm x hcycle
    obtain ⟨y, hy, -⟩ := Relation.TransGen.head'_iff.mp hcycle
    have hids := (mem_ids_of_mem_inSet hy).1
    exact not_cycle_of_acc ((mem_placed_iff hnodup).mp (hperm.mem_iff.mpr hids)).2 hcycle
  · intro hfree
    refine (perm_ext_iff_of_nodup hnd hnodup).mpr fun x ↦ ⟨hsub x, fun hx ↦ ?_⟩
    exact (mem_placed_iff hnodup).mpr
      ⟨hx, acc_of_no_cycle (fun y _ d hd ↦ (mem_ids_of_mem_inSet hd).1) hfree hx⟩

theorem neighbors_graphMap (ms : List GraphModule) (x : Nat) : neighbors (graphMap ms) x = inSet ms x := by
  unfold neighbors inSet graphMap
  generalize moduleIds ms = ids
  induction ms with
  | nil => rfl
  | cons m ms ih =>
    rw [map_cons, lookup_cons, find?_cons]
    rcases eq_or_ne x m.id with rfl | hne
    · simp only [beq_self_eq_true, Option.getD_some]
    · rw [beq_false_of_ne hne, beq_false_of_ne hne.symm]
      exact ih

end

/-! ### The layers of the visualization -/

section

variable {deps : DependencyMap} {lv : Nat → Nat} {ids : List Nat} {layers layers' : List (Nat × Nat)}
  {limit : Nat}

def Known (lv : Nat → Nat) (layers : List (Nat × Nat)) : Prop := ∀ x l, layers.lookup x = some l → l = lv x

def FindsLevel (lv : Nat → Nat) (limit : Nat) (ids : List Nat)
    (search : List (Nat × Nat) → Nat → Except SearchError (Nat × List (Nat × Nat))) : Prop :=
  ∀ layers, ∀ x ∈ ids, Known lv layers → lv x < limit → ∃ layers', search layers x = .ok (lv x, layers') ∧
    Known lv layers' ∧ x ∈ layers'.map Prod.fst ∧ ∀ y ∈ layers.map Prod.fst, y ∈ layers'.map Prod.fst

theorem deepest_eq {search : List (Nat × Nat) → Nat → Except SearchError (Nat × List (Nat × Nat))}
    (hsearch : FindsLevel lv limit ids search) (hknown : Known lv layers) {xs : List Nat}
    (hids : ∀ x ∈ xs, x ∈ ids) (hlimit : ∀ x ∈ xs, lv x < limit) :
    ∃ layers', deepest search layers xs = .ok (above lv xs, layers') ∧ Known lv layers' ∧
      ∀ y ∈ layers.map Prod.fst, y ∈ layers'.map Prod.fst := by
  induction xs generalizing layers with
  | nil => exact ⟨layers, rfl, hknown, fun _ h ↦ h⟩
  | cons x xs ih =>
    obtain ⟨found, hfound, hknown', -, hkeep⟩ := hsearch layers x (hids x mem_cons_self) hknown
      (hlimit x mem_cons_self)
    obtain ⟨rest, hrest, hknown'', hkeep'⟩ := ih hknown' (fun y hy ↦ hids y (mem_cons_of_mem x hy))
      fun y hy ↦ hlimit y (mem_cons_of_mem x hy)
    refine ⟨rest, ?_, hknown'', fun y hy ↦ hkeep' y (hkeep y hy)⟩
    rw [deepest, hfound]
    dsimp only
    rw [hrest]
    rfl

theorem layerOf_finds (hclosed : ∀ x ∈ ids, ∀ d ∈ neighbors deps x, d ∈ ids)
    (hlevel : ∀ x ∈ ids, lv x = above lv (neighbors deps x)) (limit : Nat) :
    FindsLevel lv limit ids (layerOf deps limit) := by
  induction limit with
  | zero => exact fun _ _ _ _ h ↦ absurd h (Nat.not_lt_zero _)
  | succ limit ih =>
    intro layers x hx hknown hlt
    unfold layerOf
    cases hlookup : layers.lookup x with
    | some l =>
      refine ⟨layers, ?_, hknown, mem_map_of_mem (Assoc.mem_of_lookup hlookup), fun _ h ↦ h⟩
      rw [hknown x l hlookup]
    | none =>
      have hbelow : ∀ d ∈ neighbors deps x, lv d < limit := fun d hd ↦ by
        have := lt_above (f := lv) hd
        have := hlevel x hx
        omega
      obtain ⟨rest, hrest, hknown', hkeep⟩ := deepest_eq ih hknown (hclosed x hx) hbelow
      rw [← hlevel x hx] at hrest
      refine ⟨(x, lv x) :: rest, by dsimp only; rw [hrest], fun y l hy ↦ ?_, mem_cons_self,
        fun y hy ↦ mem_cons_of_mem _ (hkeep y hy)⟩
      rw [lookup_cons] at hy
      split at hy
      · next heq =>
        cases hy
        rw [eq_of_beq heq]
      · exact hknown' y l hy

/-- `_compute_layers` gives every module its level. -/
theorem computeLayers_eq (hclosed : ∀ x ∈ ids, ∀ d ∈ neighbors deps x, d ∈ ids)
    (hlevel : ∀ x ∈ ids, lv x = above lv (neighbors deps x)) (hlimit : ∀ x ∈ ids, lv x < limit)
    {order : List Nat} (horder : ∀ x ∈ order, x ∈ ids) :
    ∃ layers, computeLayers limit order deps = .ok layers ∧ ∀ x ∈ order, layers.lookup x = some (lv x) := by
  have hrun : ∀ layers, Known lv layers → ∃ layers',
      order.foldlM (fun layers mid ↦ (layerOf deps limit layers mid).map Prod.snd) layers = .ok layers' ∧
        Known lv layers' ∧ ∀ x, x ∈ layers.map Prod.fst ∨ x ∈ order → x ∈ layers'.map Prod.fst := by
    induction order with
    | nil => exact fun layers hknown ↦ ⟨layers, rfl, hknown, fun x hx ↦ hx.resolve_right not_mem_nil⟩
    | cons mid order ih =>
      intro layers hknown
      have hmid := horder mid mem_cons_self
      obtain ⟨found, hfound, hknown', hin, hkeep⟩ :=
        layerOf_finds hclosed hlevel limit layers mid hmid hknown (hlimit mid hmid)
      obtain ⟨rest, hrest, hknown'', hall⟩ := ih (fun x hx ↦ horder x (mem_cons_of_mem mid hx)) found
        hknown'
      refine ⟨rest, ?_, hknown'', ?_⟩
      · rw [foldlM_cons, hfound]
        exact hrest
      · rintro x (hx | hx)
        · exact hall x (Or.inl (hkeep x hx))
        · rcases mem_cons.mp hx with rfl | hx
          · exact hall _ (Or.inl hin)
          · exact hall x (Or.inr hx)
  obtain ⟨layers, hlayers, hknown, hall⟩ := hrun [] nofun
  refine ⟨layers, hlayers, fun x hx ↦ ?_⟩
  cases hlookup : layers.lookup x with
  | none => exact absurd (hall x (Or.inr hx)) (Assoc.lookup_eq_none_iff.mp hlookup)
  | some l => rw [hknown x l hlookup]

end

section

variable {ms : List GraphModule} {layers : List (List Nat)}

theorem length_layersFrom_le (ms : List GraphModule) (n : Nat) (f : Frontier) :
    (layersFrom ms n f).1.length ≤ n := by
  induction n generalizing f with
  | zero => exact Nat.le_refl 0
  | succ n ih =>
    unfold layersFrom
    split
    · exact Nat.zero_le _
    · exact Nat.succ_le_succ (ih _)

theorem cycleFree_graphMap_iff :
    CycleFree (graphMap ms) ↔ ∀ x, ¬ Relation.TransGen (Below (inSet ms)) x x := by
  have hedge : Edge (graphMap ms) = Function.swap (Below (inSet ms)) := by
    funext a b
    rw [Edge, neighbors_graphMap]
    rfl
  refine forall_congr' fun x ↦ not_congr ?_
  rw [hedge, Relation.transGen_swap]

theorem graphLayers_eq (hnodup : (moduleIds ms).Nodup) (h : kahnLayers ms = .ok layers) (limit : Nat)
    (set : SetOrder) (hlimit : ms.length < limit) : ∃ computed, graphLayers limit set ms = .ok computed ∧
      ∀ x ∈ moduleIds ms, computed.lookup x = some (level layers x) := by
  obtain ⟨rfl, hperm⟩ := (kahnLayers_eq_ok_iff hnodup).mp h
  have hpeels := peels_placedLayers hnodup
  have hfree := cycleFree_graphMap_iff.mpr ((kahnLayers_ok_iff hnodup).mp ⟨_, h⟩)
  have hlength : (graphMap ms).length < limit := by rwa [graphMap, length_map]
  have hdetect := (((detectCircularDependencies_exact limit (graphMap ms)).1 hlength).1).mpr hfree
  have hplaced : ∀ x ∈ moduleIds ms, x ∈ (placedLayers ms).flatten := fun x ↦ hperm.mem_iff.mpr
  rw [graphLayers, hdetect]
  obtain ⟨computed, hcomputed, hall⟩ : ∃ computed,
      computeLayers limit (set.order (moduleIds ms)) (graphMap ms) = .ok computed ∧
        ∀ x ∈ set.order (moduleIds ms), computed.lookup x = some (level (placedLayers ms) x) := by
    refine computeLayers_eq (fun x (_ : x ∈ moduleIds ms) d hd ↦ ?_) (fun x hx ↦ ?_) (fun x hx ↦ ?_)
      fun x ↦ mem_order.mp
    · exact (mem_ids_of_mem_inSet (neighbors_graphMap ms x ▸ hd)).1
    · rw [neighbors_graphMap]
      exact (hpeels.level_eq (hplaced x hx)).1
    · exact lt_trans (lt_of_lt_of_le (level_lt_length.mpr (hplaced x hx))
        (length_layersFrom_le ms ms.length (seed ms))) hlimit
  exact ⟨computed, hcomputed, fun x hx ↦ hall x (mem_order.mpr hx)⟩

end

/-- The layering of a set of modules fails if and only if its dependencies have a cycle; otherwise it
holds every module once, right behind the last of its dependencies in the set, the layers of the
visualization are the same, and the reversed layers have a module before its dependencies. -/
theorem layering_canonical (ms : List GraphModule) (hnodup : (moduleIds ms).Nodup) :
    ((∃ layers, kahnLayers ms = .ok layers) ↔ ∀ x, ¬ Relation.TransGen (Below (inSet ms)) x x) ∧
    ∀ layers, kahnLayers ms = .ok layers →
      layers.flatten.Perm (moduleIds ms) ∧
      (∀ x ∈ moduleIds ms, level layers x = above (level layers) (inSet ms x)) ∧
      (∀ (limit : Nat) (set : SetOrder), ms.length < limit →
        ∃ computed, graphLayers limit set ms = .ok computed ∧
          ∀ x ∈ moduleIds ms, computed.lookup x = some (level layers x)) ∧
      ∃ reversed, buildLayersForModules ms true = .ok reversed ∧
        ∀ x ∈ moduleIds ms, ∀ d ∈ inSet ms x, reversed.flatten.idxOf x < reversed.flatten.idxOf d := by
  refine ⟨kahnLayers_ok_iff hnodup, fun layers h ↦ ?_⟩
  obtain ⟨rfl, hperm⟩ := (kahnLayers_eq_ok_iff hnodup).mp h
  have hpeels := peels_placedLayers hnodup
  refine ⟨hperm, fun x hx ↦ (hpeels.level_eq (hperm.mem_iff.mpr hx)).1,
    fun limit set ↦ graphLayers_eq hnodup h limit set, _, congrArg (Except.map _) h, fun x hx d hd ↦ ?_⟩
  exact idxOf_reverse_lt (placed_spec hnodup).1 (hperm.mem_iff.mpr hx)
    (hpeels.level_lt (hperm.mem_iff.mpr hx) hd)

def duplicateSet : List GraphModule :=
  [⟨3, [1, 2], true, none⟩, ⟨1, [], true, none⟩, ⟨2, [1, 1, 9], true, none⟩]

theorem layering_canonical_duplicate :
    kahnLayers duplicateSet = .ok [[1], [2], [3]] ∧
      [[1], [2], [3]].flatten.Perm (moduleIds duplicateSet) ∧
      ∃ computed, graphLayers 1000 ⟨List.dedup, fun _ ↦ .refl _⟩ duplicateSet = .ok computed ∧
        ∀ x ∈ moduleIds duplicateSet, computed.lookup x = some (level [[1], [2], [3]] x) := by
  have hlayers : kahnLayers duplicateSet = .ok [[1], [2], [3]] := rfl
  obtain ⟨hperm, -, hcomputed, -⟩ := (layering_canonical duplicateSet (by decide)).2 _ hlayers
  exact ⟨hlayers, hperm, hcomputed 1000 _ (by decide)⟩

/-! ### The deployment order -/

section

variable {ms : List GraphModule} {ids : List Nat}

/-- What `calculate_deployment_order` is given of the modules. -/
def listed (ms : List GraphModule) : DependencyMap := ms.map fun m ↦ (m.id, m.dependencies)

theorem keys_listed (ms : List GraphModule) : (listed ms).map Prod.fst = moduleIds ms := by
  simp [listed, moduleIds]

theorem within_listed (hids : ∀ y, y ∈ ids ↔ y ∈ moduleIds ms) (x : Nat) :
    within ids (listed ms) x = inSet ms x := by
  have hneighbors : neighbors (listed ms) x = (ms.find? (·.id == x)).elim [] GraphModule.dependencies := by
    clear hids
    unfold neighbors listed
    induction ms with
    | nil => rfl
    | cons m ms ih =>
      rw [map_cons, lookup_cons, find?_cons]
      rcases eq_or_ne x m.id with rfl | hne
      · simp
      · rw [beq_false_of_ne hne, beq_false_of_ne hne.symm]
        exact ih
  unfold within inSet
  rw [hneighbors]
  cases hfind : ms.find? (·.id == x) with
  | none => simp
  | some m =>
    have hx : x ∈ ids := (hids x).mpr (mem_map.mpr ⟨m, mem_of_find?_eq_some hfind, by simpa using find?_some hfind⟩)
    rw [if_pos hx]
    exact filter_congr fun y _ ↦ by simp [hids]

end

/-- A module of an earlier layer has the smaller deployment order. -/
theorem deploymentOrder_by_layers {ms : List GraphModule} (hnodup : (moduleIds ms).Nodup)
    {layers : List (List Nat)} (hlayers : kahnLayers ms = .ok layers) {limit : Nat} {set : SetOrder}
    {orders : List (Nat × Nat)} (h : calculateDeploymentOrder limit set (listed ms) = .ok orders)
    {m n i j : Nat} (hm : (m, i) ∈ orders) (hn : (n, j) ∈ orders) (hlt : level layers m < level layers n) :
    i < j := by
  obtain ⟨rfl, hperm⟩ := (kahnLayers_eq_ok_iff hnodup).mp hlayers
  have hkeys := keys_listed ms
  have hmem : ∀ y, y ∈ set.order (moduleIds ms) ↔ y ∈ moduleIds ms := fun y ↦ mem_order
  have hleveled : Kahn.Leveled (level (placedLayers ms)) (sorted (set.order (moduleIds ms)) (listed ms)) := by
    refine leveled_sorted (nodup_order set _) (hkeys.symm ▸ hnodup) fun x hx ↦ ?_
    rw [within_listed hmem]
    exact ((peels_placedLayers hnodup).level_eq (hperm.mem_iff.mpr ((hmem x).mp hx))).1
  have hresult : orders = (sorted (set.order (moduleIds ms)) (listed ms)).result.zipIdx := by
    unfold calculateDeploymentOrder topologicalSort at h
    rw [hkeys] at h
    split at h
    · cases h
    · cases h
    · dsimp only at h
      split at h
      · exact (Except.ok.inj h).symm
      · cases h
  have hsorted := (pairwise_append.mp hleveled.sorted).1
  rw [hresult] at hm hn
  obtain ⟨hi, hm⟩ := mem_zipIdx' hm
  obtain ⟨hj, hn⟩ := mem_zipIdx' hn
  by_contra hle
  rw [hm, hn] at hlt
  rcases (Nat.not_lt.mp hle).eq_or_lt with rfl | hji
  · exact Nat.lt_irrefl _ hlt
  · exact Nat.not_le.mpr hlt (pairwise_iff_getElem.mp hsorted j i hj hi hji)

theorem deploymentOrder_by_layers_duplicate :
    ∃ layers orders, kahnLayers duplicateSet = .ok layers ∧
      calculateDeploymentOrder 1000 ⟨List.dedup, fun _ ↦ .refl _⟩ (listed duplicateSet) = .ok orders ∧
      (2, 1) ∈ orders ∧ (3, 2) ∈ orders ∧ 1 < 2 := by
  have hlayers : kahnLayers duplicateSet = .ok [[1], [2], [3]] := rfl
  have horders : calculateDeploymentOrder 1000 ⟨List.dedup, fun _ ↦ .refl _⟩ (listed duplicateSet) =
      .ok [(1, 0), (2, 1), (3, 2)] := rfl
  have hsecond : (2, 1) ∈ [(1, 0), (2, 1), (3, 2)] := by decide
  have hthird : (3, 2) ∈ [(1, 0), (2, 1), (3, 2)] := by decide
  exact ⟨_, _, hlayers, horders, hsecond, hthird,
    deploymentOrder_by_layers (by decide) hlayers horders hsecond hthird (by decide)⟩

end BnkForge.Graph
