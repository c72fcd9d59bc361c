import BnkForge.Lib.Assoc
import Mathlib.Algebra.Order.BigOperators.Group.List
import Mathlib.Algebra.Order.Group.Nat
import Mathlib.Data.List.Nodup
import Mathlib.Logic.Function.Basic
import Mathlib.Logic.Relation

/-!
# The search for circular dependencies

`detect_circular_dependencies` and `validate_dependencies`
(`backend/utils/dependency_graph.py:25–70,138–197`). The depth-first search recurses in Python, so
a chain of dependencies beyond the recursion limit raises.
-/

namespace BnkForge.Graph

/-- The colours of the search. -/
inductive Color
  | white
  | gray
  | black
  deriving DecidableEq, Repr

/-- `dependencies`: a dict of the ids to their lists. -/
abbrev DependencyMap := List (Nat × List Nat)

/-- `RecursionError`, and the `ValueError` of `path.index`. -/
inductive SearchError
  | recursion
  | notInPath
  deriving DecidableEq, Repr

abbrev Found := Except SearchError (Option (List Nat) × (Nat → Color))

/-- `dependencies.get(node, [])`. -/
def neighbors (deps : DependencyMap) (node : Nat) : List Nat := (deps.lookup node).getD []

def visit (search : (Nat → Color) → Nat → Found) (color : Nat → Color) : List Nat → Found
  | [] => .ok (none, color)
  | node :: nodes =>
    match search color node with
    | .error e => .error e
    | .ok (some cycle, color) => .ok (some cycle, color)
    | .ok (none, color) => visit search color nodes

/-- `dfs`, with the number of nested calls that Python still allows. -/
def dfs (deps : DependencyMap) : Nat → List Nat → (Nat → Color) → Nat → Found
  | 0, _, _, _ => .error .recursion
  | limit + 1, path, color, node =>
    match color node with
    | .gray =>
      if node ∈ path then .ok (some (path.dropWhile (· != node) ++ [node]), color)
      else .error .notInPath
    | .black => .ok (none, color)
    | .white =>
      match visit (dfs deps limit (path ++ [node])) (Function.update color node .gray)
          (neighbors deps node) with
      | .error e => .error e
      | .ok (some cycle, color) => .ok (some cycle, color)
      | .ok (none, color) => .ok (none, Function.update color node .black)

/-- `detect_circular_dependencies`. -/
def detectCircularDependencies (limit : Nat) (deps : DependencyMap) :
    Except SearchError (Option (List Nat)) :=
  (visit (fun color node ↦ if color node = .white then dfs deps limit [] color node
    else .ok (none, color)) (fun _ ↦ .white) (deps.map Prod.fst)).map Prod.fst

/-- A module as `set_dependencies` hands it to the validation. -/
structure DependencyRow where
  id : Nat
  projectId : Nat
  dependencies : List Nat
  deriving DecidableEq, Repr

def hypothetical (moduleId : Nat) (dependencyIds : List Nat) (projectId : Nat)
    (rows : List DependencyRow) : DependencyMap :=
  (rows.filter fun m ↦ m.projectId == projectId).map fun m ↦
    (m.id, if m.id = moduleId then dependencyIds else m.dependencies)

/-- `validate_dependencies`: the message of the refusal, where there is one. -/
def validateDependencies (limit moduleId : Nat) (dependencyIds : List Nat) (projectId : Nat)
    (rows : List DependencyRow) : Except SearchError (Option String) :=
  let projectModuleIds := (rows.filter fun m ↦ m.projectId == projectId).map DependencyRow.id
  if dependencyIds.contains moduleId then .ok (some "Module cannot depend on itself")
  else
    match dependencyIds.find? fun dep ↦ !projectModuleIds.contains dep with
    | some dep => .ok (some ("Dependency module " ++ toString dep ++ " not found in project"))
    | none =>
      match detectCircularDependencies limit
          (hypothetical moduleId dependencyIds projectId rows) with
      | .error e => .error e
      | .ok (some cycle) =>
        .ok (some ("Would create circular dependency: " ++
          " -> ".intercalate (cycle.map toString)))
      | .ok none => .ok none

/-! ### Soundness of the search -/

section

variable {deps : DependencyMap} {color color' : Nat → Color} {limit : Nat} {path : List Nat}

def Finished (deps : DependencyMap) (color : Nat → Color) : Prop :=
  ∃ rank : Nat → Nat, ∀ x, color x = .black → ∀ y ∈ neighbors deps x,
    color y = .black ∧ rank y < rank x

/-- A search keeps the colours of the black and the gray nodes. -/
structure Extends (color color' : Nat → Color) : Prop where
  black : ∀ x, color x = .black → color' x = .black
  gray : ∀ x, color x = .gray ↔ color' x = .gray

theorem Extends.refl (color : Nat → Color) : Extends color color := ⟨fun _ h ↦ h, fun _ ↦ Iff.rfl⟩

theorem Extends.trans {color'' : Nat → Color} (h : Extends color color')
    (h' : Extends color' color'') : Extends color color'' :=
  ⟨fun x hx ↦ h'.black x (h.black x hx), fun x ↦ (h.gray x).trans (h'.gray x)⟩

/-- A search from colours with `P` that finds no cycle from a node leaves the node black. -/
def SoundFrom (deps : DependencyMap) (P : (Nat → Color) → Prop)
    (search : (Nat → Color) → Nat → Found) : Prop :=
  ∀ color node color', P color → Finished deps color → search color node = .ok (none, color') →
    Finished deps color' ∧ Extends color color' ∧ color' node = .black

theorem visit_sound {P : (Nat → Color) → Prop} {search : (Nat → Color) → Nat → Found}
    (hsearch : SoundFrom deps P search) (hext : ∀ c c', Extends c c' → P c → P c')
    {nodes : List Nat} (hP : P color) (hfin : Finished deps color)
    (h : visit search color nodes = .ok (none, color')) :
    Finished deps color' ∧ Extends color color' ∧ ∀ node ∈ nodes, color' node = .black := by
  induction nodes generalizing color with
  | nil =>
    cases h
    exact ⟨hfin, Extends.refl _, nofun⟩
  | cons node nodes ih =>
    unfold visit at h
    split at h
    · cases h
    · cases h
    · next c hc =>
      obtain ⟨hfin', hto, hblack⟩ := hsearch color node c hP hfin hc
      obtain ⟨hfin'', hto', hblacks⟩ := ih (hext _ _ hto hP) hfin' h
      refine ⟨hfin'', hto.trans hto', fun x hx ↦ ?_⟩
      rcases List.mem_cons.mp hx with rfl | hx
      · exact hto'.black x hblack
      · exact hblacks x hx

theorem Finished.blacken {node : Nat} (h : Finished deps color) (hnode : color node ≠ .black)
    (hblack : ∀ y ∈ neighbors deps node, color y = .black) :
    Finished deps (Function.update color node .black) := by
  obtain ⟨rank, hrank⟩ := h
  -- above the ranks of its neighbours
  refine ⟨Function.update rank node (((neighbors deps node).map rank).sum + 1), fun x hx y hy ↦ ?_⟩
  have hne : ∀ y, color y = .black → y ≠ node := by
    rintro y hy rfl
    exact hnode hy
  by_cases hxn : x = node
  · subst hxn
    have hyblack := hblack y hy
    rw [Function.update_of_ne (hne y hyblack), Function.update_self,
      Function.update_of_ne (hne y hyblack)]
    have hle : rank y ≤ ((neighbors deps x).map rank).sum :=
      List.single_le_sum (fun _ _ ↦ Nat.zero_le _) _ (List.mem_map_of_mem hy)
    exact ⟨hyblack, by omega⟩
  · rw [Function.update_of_ne hxn] at hx
    obtain ⟨hyblack, hlt⟩ := hrank x hx y hy
    rw [Function.update_of_ne (hne y hyblack), Function.update_of_ne (hne y hyblack),
      Function.update_of_ne hxn]
    exact ⟨hyblack, hlt⟩

theorem Finished.graying {node : Nat} (h : Finished deps color) (hnode : color node = .white) :
    Finished deps (Function.update color node .gray) := by
  obtain ⟨rank, hrank⟩ := h
  refine ⟨rank, fun x hx y hy ↦ ?_⟩
  by_cases hxn : x = node
  · rw [hxn, Function.update_self] at hx
    cases hx
  · rw [Function.update_of_ne hxn] at hx
    obtain ⟨hyblack, hlt⟩ := hrank x hx y hy
    have hyn : y ≠ node := by
      rintro rfl
      rw [hnode] at hyblack
      cases hyblack
    rw [Function.update_of_ne hyn]
    exact ⟨hyblack, hlt⟩

private theorem extends_visited {node : Nat} (hnode : color node = .white)
    (h : Extends (Function.update color node .gray) color') :
    Extends color (Function.update color' node .black) := by
  constructor
  · intro x hx
    by_cases hxn : x = node
    · rw [hxn, Function.update_self]
    · rw [Function.update_of_ne hxn]
      exact h.black x (by rwa [Function.update_of_ne hxn])
  · intro x
    by_cases hxn : x = node
    · rw [hxn, Function.update_self, hnode]
      exact ⟨nofun, nofun⟩
    · have := h.gray x
      rwa [Function.update_of_ne hxn] at this ⊢

theorem dfs_sound (deps : DependencyMap) (limit : Nat) (path : List Nat) :
    SoundFrom deps (fun _ ↦ True) (dfs deps limit path) := by
  induction limit generalizing path with
  | zero => exact fun color node color' _ _ h ↦ nomatch h
  | succ limit ih =>
    intro color node color' _ hfin h
    unfold dfs at h
    split at h
    · split at h
      · cases h
      · cases h
    · next hnode =>
      cases h
      exact ⟨hfin, Extends.refl color, hnode⟩
    · next hnode =>
      split at h
      · cases h
      · cases h
      · next c hvisit =>
        cases h
        obtain ⟨hfin', hext, hblack⟩ := visit_sound (ih (path ++ [node])) (fun _ _ _ h ↦ h) trivial
          (hfin.graying hnode) hvisit
        have hgray : c node = .gray := (hext.gray node).mp (Function.update_self ..)
        refine ⟨hfin'.blacken ?_ hblack, extends_visited hnode hext, Function.update_self ..⟩
        rw [hgray]
        exact nofun

theorem search_sound (deps : DependencyMap) (limit : Nat) :
    SoundFrom deps (fun color ↦ ∀ x, color x ≠ .gray) fun color node ↦
      if color node = .white then dfs deps limit [] color node else .ok (none, color) := by
  intro color node color' hgray hfin hfound
  simp only at hfound
  split at hfound
  · exact dfs_sound deps limit [] color node color' trivial hfin hfound
  · next hnode =>
    cases hfound
    refine ⟨hfin, Extends.refl color, ?_⟩
    cases hcolor : color node with
    | white => exact absurd hcolor hnode
    | gray => exact absurd hcolor (hgray node)
    | black => rfl

theorem finished_white (deps : DependencyMap) : Finished deps fun _ ↦ .white :=
  ⟨fun _ ↦ 0, fun _ h ↦ Color.noConfusion h⟩

theorem rank_of_detect (h : detectCircularDependencies limit deps = .ok none) :
    ∃ rank : Nat → Nat, ∀ x, ∀ y ∈ neighbors deps x, rank y < rank x := by
  unfold detectCircularDependencies at h
  cases hvisit : visit (fun color node ↦ if color node = .white then dfs deps limit [] color node
      else .ok (none, color)) (fun _ ↦ .white) (deps.map Prod.fst) with
  | error e =>
    rw [hvisit] at h
    cases h
  | ok found =>
    obtain ⟨cycle, color⟩ := found
    rw [hvisit] at h
    obtain rfl : cycle = none := by simpa [Except.map] using h
    have hnoGray : ∀ x : Nat, (fun _ ↦ Color.white : Nat → Color) x ≠ .gray := fun _ ↦ nofun
    obtain ⟨⟨rank, hrank⟩, -, hblack⟩ := visit_sound (search_sound deps limit)
      (fun c c' hext hgray x hx ↦ hgray x ((hext.gray x).mpr hx)) hnoGray (finished_white deps) hvisit
    refine ⟨rank, fun x y hy ↦ (hrank x (hblack x ?_) y hy).2⟩
    by_contra hx
    rw [neighbors, Assoc.lookup_eq_none_iff.mpr hx] at hy
    cases hy

theorem validateDependencies_sound {moduleId projectId : Nat} {dependencyIds : List Nat}
    {rows : List DependencyRow}
    (h : validateDependencies limit moduleId dependencyIds projectId rows = .ok none) :
    (∀ dep ∈ dependencyIds, ∃ m ∈ rows, m.id = dep ∧ m.projectId = projectId) ∧
      ∃ rank : Nat → Nat, ∀ x, ∀ y ∈ neighbors
        (hypothetical moduleId dependencyIds projectId rows) x, rank y < rank x := by
  unfold validateDependencies at h
  dsimp only at h
  split at h
  · cases h
  · split at h
    · cases h
    · next hfound =>
      split at h
      · cases h
      · cases h
      · next hdetect =>
        refine ⟨fun dep hdep ↦ ?_, rank_of_detect hdetect⟩
        have hmem := List.find?_eq_none.mp hfound dep hdep
        simp only [List.contains_eq_mem, Bool.not_eq_true', decide_eq_false_iff_not, not_not,
          List.mem_map, List.mem_filter, beq_iff_eq] at hmem
        obtain ⟨m, ⟨hm, hproject⟩, hid⟩ := hmem
        exact ⟨m, hm, hid, hproject⟩

end

end BnkForge.Graph
