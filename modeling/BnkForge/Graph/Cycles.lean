import BnkForge.Graph.Dependencies
import BnkForge.Lib.Rank
import Mathlib.Data.List.Perm.Subperm

/-!
# The cycles of a dependency map

What `detect_circular_dependencies` (`backend/utils/dependency_graph.py:24–71`) says about a map: it has
no cycle where none is returned, and what is returned is one. The path is a walk along dependencies to
the node that is searched, and the gray nodes are those of the path.
-/

namespace BnkForge.Graph

open List

/-- The module `a` lists `b` as a dependency. -/
def Edge (deps : DependencyMap) (a b : Nat) : Prop := b ∈ neighbors deps a

/-- No module depends on itself, over however many others. -/
def CycleFree (deps : DependencyMap) : Prop := ∀ x, ¬ Relation.TransGen (Edge deps) x x

/-- A walk along dependencies that ends with the module it starts with. -/
structure ClosedWalk (deps : DependencyMap) (cycle : List Nat) : Prop where
  closed : ∃ node inner, cycle = node :: inner ++ [node]
  walk : cycle.IsChain (Edge deps)

section

variable {deps : DependencyMap} {color : Nat → Color} {limit allowed node : Nat} {path : List Nat}

theorem ClosedWalk.not_cycleFree {cycle : List Nat} (h : ClosedWalk deps cycle) : ¬ CycleFree deps := by
  obtain ⟨node, inner, rfl⟩ := h.closed
  exact fun hfree ↦ hfree node (Rank.transGen_of_isChain h.walk)

theorem cycleFree_of_rank {rank : Nat → Nat} (h : ∀ x, ∀ y ∈ neighbors deps x, rank y < rank x) :
    CycleFree deps := fun _ ↦
  Rank.not_transGen_self rank (P := fun _ ↦ True) (fun _ _ _ _ ↦ trivial) (fun x y _ hy ↦ h x y hy) trivial

theorem closedWalk_of_mem (hwalk : (path ++ [node]).IsChain (Edge deps)) (hmem : node ∈ path) :
    ClosedWalk deps (path.dropWhile (· != node) ++ [node]) := by
  obtain ⟨before, after, rfl, hfirst⟩ := eq_append_cons_of_mem hmem
  have hbefore : ∀ x ∈ before, (x != node) = true := by
    rintro x hx
    exact bne_iff_ne.mpr fun h ↦ hfirst (h ▸ hx)
  have hdrop : (before ++ node :: after).dropWhile (· != node) = node :: after := by
    rw [dropWhile_append_of_pos hbefore, dropWhile_cons_of_neg (by simp)]
  rw [hdrop]
  refine ⟨⟨node, after, rfl⟩, ?_⟩
  rw [append_assoc] at hwalk
  exact hwalk.right_of_append

/-- What a search may answer, `allowed` being the nested calls that Python allows in all. -/
def Honest (deps : DependencyMap) (allowed : Nat) : Found → Prop
  | .ok (some cycle, _) => ClosedWalk deps cycle
  | .ok (none, _) => True
  | .error .notInPath => False
  | .error .recursion => allowed ≤ deps.length

theorem visit_honest {P : (Nat → Color) → Prop} {search : (Nat → Color) → Nat → Found}
    (hsearch : SoundFrom deps P search) (hext : ∀ c c', Extends c c' → P c → P c') {nodes : List Nat}
    (hhonest : ∀ c, ∀ n ∈ nodes, P c → Finished deps c → Honest deps allowed (search c n))
    (hP : P color) (hfin : Finished deps color) : Honest deps allowed (visit search color nodes) := by
  induction nodes generalizing color with
  | nil => trivial
  | cons n nodes ih =>
    have hn := hhonest color n mem_cons_self hP hfin
    unfold visit
    split
    · next e he => rwa [he] at hn
    · next cycle c hc => rwa [hc] at hn
    · next c hc =>
      obtain ⟨hfin', hto, -⟩ := hsearch color n c hP hfin hc
      exact ih (fun c m hm ↦ hhonest c m (mem_cons_of_mem n hm)) (hext _ _ hto hP) hfin'

theorem mem_keys_of_edge {a b : Nat} (h : Edge deps a b) : a ∈ deps.map Prod.fst := by
  by_contra hout
  rw [Edge, neighbors, Assoc.lookup_eq_none_iff.mpr hout] at h
  cases h

theorem dfs_honest (hgray : ∀ x, color x = .gray ↔ x ∈ path) (hfin : Finished deps color)
    (hnodup : path.Nodup) (hkeys : ∀ x ∈ path, x ∈ deps.map Prod.fst)
    (hwalk : (path ++ [node]).IsChain (Edge deps)) :
    Honest deps (path.length + limit) (dfs deps limit path color node) := by
  induction limit generalizing path color node with
  | zero =>
    have hle := (subperm_of_subset hnodup hkeys).length_le
    rwa [length_map] at hle
  | succ limit ih =>
    unfold dfs
    split
    · next hcolor =>
      rw [if_pos ((hgray node).mp hcolor)]
      exact closedWalk_of_mem hwalk ((hgray node).mp hcolor)
    · trivial
    · next hcolor =>
      have hnot : node ∉ path := fun hmem ↦ by
        have := (hgray node).mpr hmem
        rw [hcolor] at this
        cases this
      have hgray' : ∀ x, Function.update color node .gray x = .gray ↔ x ∈ path ++ [node] := by
        intro x
        rw [mem_append, mem_singleton, ← hgray]
        by_cases hx : x = node
        · rw [hx, Function.update_self]
          exact iff_of_true rfl (Or.inr rfl)
        · rw [Function.update_of_ne hx, or_iff_left hx]
      have hvisit : Honest deps (path.length + (limit + 1))
          (visit (dfs deps limit (path ++ [node])) (Function.update color node .gray)
            (neighbors deps node)) := by
        refine visit_honest (P := fun c ↦ ∀ x, c x = .gray ↔ x ∈ path ++ [node])
          (fun c n c' _ ↦ dfs_sound deps limit (path ++ [node]) c n c' trivial)
          (fun c c' hto hc x ↦ (hto.gray x).symm.trans (hc x)) (fun c n hn hc hcfin ↦ ?_) hgray'
          (hfin.graying hcolor)
        have hnodup' : (path ++ [node]).Nodup :=
          nodup_append.mpr ⟨hnodup, nodup_singleton node, fun x hx y hy hxy ↦
            hnot (mem_singleton.mp hy ▸ hxy ▸ hx)⟩
        have hkeys' : ∀ x ∈ path ++ [node], x ∈ deps.map Prod.fst := by
          intro x hx
          rcases mem_append.mp hx with hx | hx
          · exact hkeys x hx
          · exact mem_singleton.mp hx ▸ mem_keys_of_edge hn
        have hwalk' : (path ++ [node] ++ [n]).IsChain (Edge deps) := by
          rw [append_assoc]
          exact isChain_append_cons_cons.mpr ⟨hwalk, hn, isChain_singleton n⟩
        have hrest := ih hc hcfin hnodup' hkeys' hwalk'
        rwa [length_append, length_singleton, Nat.add_assoc, Nat.add_comm 1] at hrest
      split
      · next e he => rwa [he] at hvisit
      · next cycle c hc => rwa [hc] at hvisit
      · trivial

theorem detect_honest (limit : Nat) (deps : DependencyMap) :
    match detectCircularDependencies limit deps with
    | .ok (some cycle) => ClosedWalk deps cycle
    | .ok none => CycleFree deps
    | .error .notInPath => False
    | .error .recursion => limit ≤ deps.length := by
  have hfree : detectCircularDependencies limit deps = .ok none → CycleFree deps := fun h ↦
    let ⟨_, hrank⟩ := rank_of_detect h
    cycleFree_of_rank hrank
  have hvisit : Honest deps limit (visit (fun color node ↦ if color node = .white then
      dfs deps limit [] color node else .ok (none, color)) (fun _ ↦ .white) (deps.map Prod.fst)) := by
    refine visit_honest (search_sound deps limit)
      (fun c c' hto hgray x hx ↦ hgray x ((hto.gray x).mpr hx)) (fun c n _ hgray hfin ↦ ?_)
      (fun _ ↦ Color.noConfusion) (finished_white deps)
    split
    · have hdfs : Honest deps (([] : List Nat).length + limit) (dfs deps limit [] c n) :=
        dfs_honest (fun x ↦ iff_of_false (hgray x) not_mem_nil) hfin nodup_nil nofun
          (isChain_singleton n)
      rwa [length_nil, Nat.zero_add] at hdfs
    · trivial
  unfold detectCircularDependencies at hfree ⊢
  generalize visit _ _ _ = found at hfree hvisit ⊢
  cases found with
  | error e => cases e <;> exact hvisit
  | ok found =>
    obtain ⟨cycle, color⟩ := found
    cases cycle with
    | none => exact hfree rfl
    | some cycle => exact hvisit

end

/-- The search finds no cycle if and only if there is none, with as many nested calls as there are
modules and one more; a cycle that it returns is one, and the path always holds the node that is looked
up in it. -/
theorem detectCircularDependencies_exact (limit : Nat) (deps : DependencyMap) :
    (deps.length < limit →
      (detectCircularDependencies limit deps = .ok none ↔ CycleFree deps) ∧
      (¬ CycleFree deps → ∃ cycle, detectCircularDependencies limit deps = .ok (some cycle))) ∧
    (∀ cycle, detectCircularDependencies limit deps = .ok (some cycle) → ClosedWalk deps cycle) ∧
    detectCircularDependencies limit deps ≠ .error .notInPath := by
  have hhonest := detect_honest limit deps
  cases hdetect : detectCircularDependencies limit deps with
  | error e =>
    rw [hdetect] at hhonest
    cases e with
    | notInPath => cases hhonest
    | recursion => exact ⟨fun hlimit ↦ absurd hlimit (Nat.not_lt.mpr hhonest), nofun, nofun⟩
  | ok found =>
    rw [hdetect] at hhonest
    cases found with
    | none => exact ⟨fun _ ↦ ⟨iff_of_true rfl hhonest, fun h ↦ absurd hhonest h⟩, nofun, nofun⟩
    | some cycle =>
      refine ⟨fun _ ↦ ⟨iff_of_false nofun hhonest.not_cycleFree, fun _ ↦ ⟨cycle, rfl⟩⟩, ?_, nofun⟩
      rintro _ ⟨⟩
      exact hhonest

/-- Two modules that depend on each other, and one that depends on one of them. -/
theorem detectCircularDependencies_exact_pair :
    detectCircularDependencies 1000 [(1, [2]), (2, [3]), (3, [2])] = .ok (some [2, 3, 2]) ∧
      ClosedWalk [(1, [2]), (2, [3]), (3, [2])] [2, 3, 2] ∧
      ∃ cycle, detectCircularDependencies 1000 [(1, [2]), (2, [3]), (3, [2])] = .ok (some cycle) := by
  obtain ⟨hlimit, hwalk, -⟩ :=
    detectCircularDependencies_exact 1000 [(1, [2]), (2, [3]), (3, [2])]
  have hfound : detectCircularDependencies 1000 [(1, [2]), (2, [3]), (3, [2])] = .ok (some [2, 3, 2]) := rfl
  exact ⟨hfound, hwalk _ hfound, (hlimit (by decide)).2 (hwalk _ hfound).not_cycleFree⟩

end BnkForge.Graph
