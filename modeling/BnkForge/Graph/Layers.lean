import Mathlib.Data.List.Count
import Mathlib.Data.List.Nodup
import Mathlib.Data.List.Perm.Subperm
import Mathlib.Logic.Function.Basic

/-!
# Dependency layers

`_kahn_layers` and `build_layers` (`backend/services/dependency_graph_service.py:20–177`): a
breadth-first topological sort that counts, for every module, the dependency edges within the
working set that are not yet behind it. The list of modules stands for the order in which
Python walks through the set of ids.
-/

namespace BnkForge.Graph

open List

/-- The columns of a project module that the graph service reads. -/
structure GraphModule where
  id : Nat
  dependencies : List Nat
  enabled : Bool
  /-- `library_module.name`, where the library module exists. -/
  libraryName : Option String
  deriving DecidableEq, Repr

structure Frontier where
  inDegree : Nat → Nat
  queue : List Nat

section Search

variable (ms : List GraphModule)

/-- `module_ids`. -/
def moduleIds : List Nat := ms.map GraphModule.id

/-- `in_degree` when all edges are counted; edges that leave the working set are ignored. -/
def inDegree (mid : Nat) : Nat :=
  match ms.find? (·.id == mid) with
  | some m => m.dependencies.countP (moduleIds ms).contains
  | none => 0

/-- `dependents[dep]`, with one entry for each edge. -/
def dependentsOf (dep : Nat) : List Nat :=
  ms.flatMap fun m ↦ List.replicate (m.dependencies.count dep) m.id

/-- One edge to `x` is behind. -/
def decrease (f : Frontier) (x : Nat) : Frontier :=
  ⟨Function.update f.inDegree x (f.inDegree x - 1),
    if f.inDegree x - 1 = 0 then f.queue ++ [x] else f.queue⟩

def pop (f : Frontier) (mid : Nat) : Frontier := (dependentsOf ms mid).foldl decrease f

/-- Pop the modules that are in the queue; the ones that they free form the next layer. -/
def popLayer (f : Frontier) : Frontier := f.queue.foldl (pop ms) ⟨f.inDegree, []⟩

/-- `while queue`, for at most as many layers as there are modules. -/
def layersFrom : Nat → Frontier → List (List Nat) × Frontier
  | 0, f => ([], f)
  | n + 1, f =>
    if f.queue = [] then ([], f)
    else (f.queue :: (layersFrom n (popLayer ms f)).1, (layersFrom n (popLayer ms f)).2)

/-- The queue that the search begins with. -/
def seed : Frontier := ⟨inDegree ms, (moduleIds ms).filter fun mid ↦ inDegree ms mid == 0⟩

def GraphModule.cycleName (m : GraphModule) : String :=
  m.libraryName.getD ("ID:" ++ toString m.id)

/-- `_kahn_layers`; `dependency_graph_service.py:20`. -/
def kahnLayers : Except String (List (List Nat)) :=
  if ms = [] then .ok []
  else
    let (layers, f) := layersFrom ms ms.length (seed ms)
    if layers.flatten.length < ms.length then
      .error ("Circular dependency detected among modules: " ++ ", ".intercalate
        (((ms.filter fun m ↦ 0 < f.inDegree m.id).map GraphModule.cycleName).mergeSort))
    else .ok layers

/-- `build_layers`, over the modules of a project; `dependency_graph_service.py:139`. -/
def buildLayers : Except String (List (List Nat)) := kahnLayers (ms.filter GraphModule.enabled)

end Search

/-! ### What one pop does -/

section Pop

/-- What going through `c` edges to `x` makes of the frontier. -/
private theorem foldl_replicate (x c : Nat) (f : Frontier) (hc : c ≤ f.inDegree x) :
    ((List.replicate c x).foldl decrease f).inDegree x = f.inDegree x - c ∧
      (∀ y, y ≠ x → ((List.replicate c x).foldl decrease f).inDegree y = f.inDegree y) ∧
      ((List.replicate c x).foldl decrease f).queue =
        f.queue ++ if 0 < c ∧ c = f.inDegree x then [x] else [] := by
  induction c generalizing f with
  | zero => simp
  | succ c ih =>
    have hself : (decrease f x).inDegree x = f.inDegree x - 1 := Function.update_self ..
    obtain ⟨hx, hy, hqueue⟩ := ih (decrease f x) (by omega)
    rw [replicate_succ, foldl_cons]
    refine ⟨by rw [hx, hself]; omega, fun y hne ↦ ?_, ?_⟩
    · rw [hy y hne]
      exact Function.update_of_ne hne ..
    · rw [hqueue, hself, decrease]
      by_cases hlast : f.inDegree x - 1 = 0
      · have hzero : c = 0 := by omega
        have hone : 1 = f.inDegree x := by omega
        simp [hzero, ← hone]
      · have hiff : (0 < c ∧ c = f.inDegree x - 1) ↔ (0 < c + 1 ∧ c + 1 = f.inDegree x) := by omega
        simp only [if_neg hlast, hiff]

private theorem foldl_dependents (count : GraphModule → Nat) (ms : List GraphModule)
    (f : Frontier) (hnodup : (moduleIds ms).Nodup)
    (hle : ∀ m ∈ ms, count m ≤ f.inDegree m.id) :
    let g := (ms.flatMap fun m ↦ List.replicate (count m) m.id).foldl decrease f
    (∀ m ∈ ms, g.inDegree m.id = f.inDegree m.id - count m) ∧
      (∀ x, x ∉ moduleIds ms → g.inDegree x = f.inDegree x) ∧
      g.queue = f.queue ++
        (ms.filter fun m ↦ 0 < count m ∧ count m = f.inDegree m.id).map GraphModule.id := by
  induction ms generalizing f with
  | nil => exact ⟨nofun, fun _ _ ↦ rfl, by simp⟩
  | cons m ms ih =>
    rw [moduleIds, map_cons, nodup_cons] at hnodup
    obtain ⟨hm, hrest⟩ := hnodup
    have hne : ∀ m' ∈ ms, m'.id ≠ m.id := by
      intro m' hm' heq
      exact hm (mem_map.mpr ⟨m', hm', heq⟩)
    obtain ⟨hself, hother, hqueue₀⟩ := foldl_replicate m.id (count m) f (hle m mem_cons_self)
    simp only [flatMap_cons, foldl_append]
    generalize (List.replicate (count m) m.id).foldl decrease f = f₀ at hself hother hqueue₀ ⊢
    obtain ⟨hin, hout, hqueue⟩ := ih f₀ hrest (by
      intro m' hm'
      rw [hother m'.id (hne m' hm')]
      exact hle m' (mem_cons_of_mem m hm'))
    refine ⟨?_, ?_, ?_⟩
    · intro m' hm'
      rcases mem_cons.mp hm' with rfl | hm'
      · exact (hout _ hm).trans hself
      · rw [hin m' hm', hother m'.id (hne m' hm')]
    · intro x hx
      rw [moduleIds, map_cons, mem_cons, not_or] at hx
      rw [hout x hx.2, hother x hx.1]
    · have hsame : (ms.filter fun m' ↦ 0 < count m' ∧ count m' = f₀.inDegree m'.id) =
          ms.filter fun m' ↦ 0 < count m' ∧ count m' = f.inDegree m'.id := by
        apply filter_congr
        intro m' hm'
        rw [hother m'.id (hne m' hm')]
      rw [hqueue, hqueue₀, hsame, append_assoc]
      by_cases hfree : 0 < count m ∧ count m = f.inDegree m.id
      · rw [if_pos hfree, filter_cons, if_pos (decide_eq_true hfree)]
        rfl
      · rw [if_neg hfree, filter_cons, if_neg (by rwa [decide_eq_true_eq])]
        rfl

end Pop

/-! ### The search -/

section Search

variable (ms : List GraphModule)

def openEdges (popped : List Nat) (m : GraphModule) : Nat :=
  m.dependencies.countP fun d ↦ (moduleIds ms).contains d && !popped.contains d

/-- The search after popping `popped`, with `pending` the rest of the current layer. -/
structure Searching (popped pending : List Nat) (f : Frontier) : Prop where
  nodup : (popped ++ pending ++ f.queue).Nodup
  subset : ∀ x ∈ popped ++ pending ++ f.queue, x ∈ moduleIds ms
  inDegree : ∀ m ∈ ms, f.inDegree m.id = openEdges ms popped m
  free : ∀ m ∈ ms, f.inDegree m.id = 0 ↔ m.id ∈ popped ++ pending ++ f.queue

variable {ms} {popped pending : List Nat} {f : Frontier}

private theorem openEdges_append {mid : Nat} (hmid : mid ∈ moduleIds ms) (hnot : mid ∉ popped)
    (m : GraphModule) :
    openEdges ms popped m = openEdges ms (popped ++ [mid]) m + m.dependencies.count mid := by
  unfold openEdges
  induction m.dependencies with
  | nil => rfl
  | cons d ds ih =>
    rw [countP_cons, countP_cons, count_cons, ih]
    by_cases hd : d = mid
    · subst hd
      simp [hmid, hnot]
      omega
    · simp [hd]
      omega

private theorem Searching.pop {mid : Nat} (hnodup : (moduleIds ms).Nodup)
    (h : Searching ms popped (mid :: pending) f) :
    Searching ms (popped ++ [mid]) pending (pop ms f mid) := by
  have hmid : mid ∈ moduleIds ms := h.subset mid (by simp)
  have hnot : mid ∉ popped := by
    intro hmem
    have hdisj := (nodup_append.mp (nodup_append.mp h.nodup).1).2.2
    exact hdisj mid hmem mid mem_cons_self rfl
  have hle : ∀ m ∈ ms, m.dependencies.count mid ≤ f.inDegree m.id := by
    intro m hm
    rw [h.inDegree m hm, openEdges_append hmid hnot m]
    omega
  obtain ⟨hin, hout, hqueue⟩ :=
    foldl_dependents (fun m ↦ m.dependencies.count mid) ms f hnodup hle
  have hperm : popped ++ [mid] ++ pending ++ (Graph.pop ms f mid).queue =
      (popped ++ mid :: pending ++ f.queue) ++ (ms.filter fun m ↦
        0 < m.dependencies.count mid ∧ m.dependencies.count mid = f.inDegree m.id).map
          GraphModule.id := by
    rw [Graph.pop, dependentsOf, hqueue]
    simp
  constructor
  · rw [hperm]
    refine nodup_append.mpr ⟨h.nodup, (hnodup.sublist (filter_sublist.map _)), ?_⟩
    rintro x hx _ hy rfl
    obtain ⟨m, hm, rfl⟩ := mem_map.mp hy
    rw [mem_filter, decide_eq_true_eq] at hm
    have hzero := (h.free m hm.1).mpr hx
    omega
  · rw [hperm]
    intro x hx
    rcases mem_append.mp hx with hx | hx
    · exact h.subset x hx
    · obtain ⟨m, hm, rfl⟩ := mem_map.mp hx
      exact mem_map_of_mem (mem_of_mem_filter hm)
  · intro m hm
    have hm' := hin m hm
    rw [h.inDegree m hm, openEdges_append hmid hnot m, Nat.add_sub_cancel] at hm'
    exact hm'
  · intro m hm
    rw [hperm, mem_append, ← h.free m hm, Graph.pop, dependentsOf, hin m hm]
    have hbound := hle m hm
    constructor
    · intro hzero
      by_cases hfree : f.inDegree m.id = 0
      · exact Or.inl hfree
      · right
        refine mem_map_of_mem (mem_filter.mpr ⟨hm, decide_eq_true ?_⟩)
        omega
    · rintro (hzero | hmem)
      · omega
      · obtain ⟨m', hm', hid⟩ := mem_map.mp hmem
        rw [mem_filter, decide_eq_true_eq] at hm'
        have heq : m' = m := inj_on_of_nodup_map hnodup hm'.1 hm hid
        subst heq
        omega

private theorem Searching.foldl_pop (hnodup : (moduleIds ms).Nodup) (pending : List Nat) :
    ∀ {popped : List Nat} {f : Frontier}, Searching ms popped pending f →
      Searching ms (popped ++ pending) [] (pending.foldl (Graph.pop ms) f) := by
  induction pending with
  | nil =>
    intro popped f h
    rwa [append_nil]
  | cons mid pending ih =>
    intro popped f h
    have hrest := ih (h.pop hnodup)
    rwa [append_assoc, singleton_append] at hrest

theorem Searching.popLayer (hnodup : (moduleIds ms).Nodup)
    (h : Searching ms popped [] f) :
    Searching ms (popped ++ f.queue) [] (popLayer ms f) := by
  apply Searching.foldl_pop hnodup
  constructor
  · simpa using h.nodup
  · simpa using h.subset
  · exact h.inDegree
  · simpa using h.free

theorem Searching.layersFrom (hnodup : (moduleIds ms).Nodup) (n : Nat) :
    ∀ {popped : List Nat} {f : Frontier}, Searching ms popped [] f →
      ms.length ≤ popped.length + n →
      let r := layersFrom ms n f
      Searching ms (popped ++ r.1.flatten) [] r.2 ∧
        (r.2.queue = [] ∨ ms.length ≤ (popped ++ r.1.flatten).length) := by
  induction n with
  | zero =>
    intro popped f h hn
    simp only [Graph.layersFrom, flatten_nil, append_nil]
    exact ⟨h, Or.inr (by omega)⟩
  | succ n ih =>
    intro popped f h hn
    rw [Graph.layersFrom]
    split
    · next hempty => exact ⟨by simpa using h, Or.inl hempty⟩
    · next hne =>
      have hpos : 0 < f.queue.length := length_pos_of_ne_nil hne
      have hrest := ih (h.popLayer hnodup) (by rw [length_append]; omega)
      simpa only [flatten_cons, append_assoc] using hrest

theorem searching_seed (hnodup : (moduleIds ms).Nodup) : Searching ms [] [] (seed ms) := by
  have hdegree : ∀ m ∈ ms, inDegree ms m.id = openEdges ms [] m := by
    intro m hm
    unfold inDegree
    split
    · next m' hfind =>
      have hid : m'.id = m.id := by simpa using find?_some hfind
      rw [inj_on_of_nodup_map hnodup (mem_of_find?_eq_some hfind) hm hid]
      apply countP_congr
      intro d _
      simp
    · next hfind => exact absurd (beq_self_eq_true m.id) (find?_eq_none.mp hfind m hm)
  constructor
  · exact hnodup.filter _
  · intro x hx
    exact mem_of_mem_filter hx
  · exact hdegree
  · intro m hm
    simp [seed, moduleIds, mem_filter, mem_map_of_mem hm]

variable (ms) in
/-- The dependency edges within the working set are acyclic. -/
def Acyclic : Prop :=
  ∃ rank : Nat → Nat, ∀ m ∈ ms, ∀ d ∈ m.dependencies, d ∈ moduleIds ms → rank d < rank m.id

private theorem Searching.complete (hacyclic : Acyclic ms) (h : Searching ms popped [] f)
    (hqueue : f.queue = []) : ∀ m ∈ ms, m.id ∈ popped := by
  obtain ⟨rank, hrank⟩ := hacyclic
  intro m hm
  induction hn : rank m.id using Nat.strongRecOn generalizing m with
  | _ n ih =>
    by_contra hnot
    have hopen : openEdges ms popped m ≠ 0 := by
      rw [← h.inDegree m hm, ne_eq, h.free m hm, hqueue]
      simpa using hnot
    obtain ⟨d, hd, hopen⟩ := countP_pos_iff.mp (Nat.pos_of_ne_zero hopen)
    simp only [Bool.and_eq_true, Bool.not_eq_true', contains_eq_mem, decide_eq_true_eq,
      decide_eq_false_iff_not] at hopen
    obtain ⟨m', hm', rfl⟩ := mem_map.mp hopen.1
    exact hopen.2 (ih (rank m'.id) (hn ▸ hrank m hm m'.id hd hopen.1) m' hm' rfl)

theorem kahnLayers_of_acyclic (hnodup : (moduleIds ms).Nodup) (hacyclic : Acyclic ms) :
    ∃ layers, kahnLayers ms = .ok layers ∧ layers.flatten.Perm (moduleIds ms) := by
  by_cases hempty : ms = []
  · exact ⟨[], if_pos hempty, by rw [hempty]; exact List.Perm.refl []⟩
  · obtain ⟨hend, hstop⟩ := (searching_seed hnodup).layersFrom hnodup ms.length (by simp)
    have hlen : (moduleIds ms).length = ms.length := length_map ..
    have hsub : ∀ x ∈ (layersFrom ms ms.length (seed ms)).1.flatten, x ∈ moduleIds ms :=
      fun x hx ↦ hend.subset x (by simp [hx])
    have hnd : (layersFrom ms ms.length (seed ms)).1.flatten.Nodup := by
      have hall := hend.nodup
      rw [nil_append, append_nil] at hall
      exact (nodup_append.mp hall).1
    have hperm : (layersFrom ms ms.length (seed ms)).1.flatten.Perm (moduleIds ms) := by
      rcases hstop with hqueue | hcount
      · rw [perm_ext_iff_of_nodup hnd hnodup]
        refine fun x ↦ ⟨hsub x, fun hx ↦ ?_⟩
        obtain ⟨m, hm, rfl⟩ := mem_map.mp hx
        exact hend.complete hacyclic hqueue m hm
      · exact (hnd.subperm hsub).perm_of_length_le (by rw [hlen]; exact hcount)
    refine ⟨_, ?_, hperm⟩
    rw [kahnLayers, if_neg hempty]
    exact if_neg (by rw [hperm.length_eq, hlen]; exact Nat.lt_irrefl _)

end Search

/-! ### The execution plan -/

/-- What `get_execution_plan` (`backend/services/parallel_execution_service.py:92`) returns; a
plan without layers has no entry `total_modules`. -/
inductive ExecutionPlan
  | empty
  | layered (layers : List (List Nat))
  | error (message : String)
  deriving DecidableEq, Repr

/-- `get_execution_plan`, without the time estimates. -/
def getExecutionPlan (ms : List GraphModule) : ExecutionPlan :=
  match buildLayers ms with
  | .ok [] => .empty
  | .ok layers => .layered layers
  | .error message => .error message

def ExecutionPlan.modules : ExecutionPlan → List Nat
  | .layered layers => layers.flatten
  | _ => []

/-- The exceptions of the entry points that ask for a plan. -/
inductive PlanError
  | valueError (message : String)
  | keyError (key : String)
  deriving DecidableEq, Repr

/-- The checks of `deploy_project_parallel` and `destroy_project_parallel` on their plan:
whether the first wave is dispatched. -/
def ExecutionPlan.dispatches (verb : String) : ExecutionPlan → Except PlanError Bool
  | .error message => .error (.valueError ("Cannot " ++ verb ++ ": " ++ message))
  | .empty => .error (.keyError "total_modules")
  | .layered layers => .ok (layers.flatten.length != 0)

section Plan

variable {ms : List GraphModule}

theorem Acyclic.filter (hacyclic : Acyclic ms) (p : GraphModule → Bool) :
    Acyclic (ms.filter p) := by
  obtain ⟨rank, hrank⟩ := hacyclic
  refine ⟨rank, fun m hm d hd hids ↦ hrank m (mem_of_mem_filter hm) d hd ?_⟩
  exact (filter_sublist.map GraphModule.id).subset hids

theorem modules_getExecutionPlan (hnodup : (moduleIds ms).Nodup)
    (hacyclic : Acyclic (ms.filter GraphModule.enabled)) :
    (getExecutionPlan ms).modules.Perm (moduleIds (ms.filter GraphModule.enabled)) := by
  have hsub : (moduleIds (ms.filter GraphModule.enabled)).Nodup :=
    hnodup.sublist (filter_sublist.map _)
  obtain ⟨layers, hok, hperm⟩ := kahnLayers_of_acyclic hsub hacyclic
  rw [getExecutionPlan, buildLayers, hok]
  cases layers with
  | nil => exact hperm
  | cons layer layers => exact hperm

theorem dispatches_getExecutionPlan (hnodup : (moduleIds ms).Nodup)
    (hacyclic : Acyclic (ms.filter GraphModule.enabled)) (verb : String) :
    (getExecutionPlan ms).dispatches verb =
      if ms.any GraphModule.enabled then .ok true else .error (.keyError "total_modules") := by
  have hsub : (moduleIds (ms.filter GraphModule.enabled)).Nodup :=
    hnodup.sublist (filter_sublist.map _)
  obtain ⟨layers, hok, hperm⟩ := kahnLayers_of_acyclic hsub hacyclic
  have hlen : layers.flatten.length = (ms.filter GraphModule.enabled).length :=
    hperm.length_eq.trans (length_map ..)
  by_cases hany : ms.any GraphModule.enabled = true
  · obtain ⟨m, hm, hen⟩ := any_eq_true.mp hany
    have hpos : 0 < (ms.filter GraphModule.enabled).length :=
      length_pos_of_mem (mem_filter.mpr ⟨hm, hen⟩)
    rw [if_pos hany, getExecutionPlan, buildLayers, hok]
    cases layers with
    | nil => simp only [flatten_nil, length_nil] at hlen; omega
    | cons layer layers =>
      simp only [ExecutionPlan.dispatches]
      congr
      rw [bne_iff_ne]
      omega
  · have hnone : ms.filter GraphModule.enabled = [] := by
      rw [filter_eq_nil_iff]
      intro m hm hen
      exact hany (any_eq_true.mpr ⟨m, hm, hen⟩)
    rw [if_neg hany, getExecutionPlan, buildLayers, hnone]
    rfl

end Plan

end BnkForge.Graph
