import Mathlib.Data.Fintype.EquivFin
import Mathlib.Data.Fintype.Sets
import Mathlib.Data.List.Nodup
import Mathlib.Logic.Relation

/-!
# Peeling a dependency relation

Layers of nodes, where the dependencies of a node all stand in the layers before its own, and not all in
those before the last of them. Only nodes from which the dependencies are well founded can be placed, and
the layer of a node is the length of the longest chain of dependencies from it.
-/

namespace Peeling

open List

variable {α : Type}

/-- A node has another as a dependency; what is below a node is what it depends on. -/
def Below (deps : α → List α) (d x : α) : Prop := d ∈ deps x

/-- One more than the largest value in a list, and zero without one. -/
def above (f : α → Nat) (xs : List α) : Nat := (xs.map (f · + 1)).foldr max 0

theorem above_le {f : α → Nat} {xs : List α} {k : Nat} (h : ∀ x ∈ xs, f x < k) : above f xs ≤ k := by
  induction xs with
  | nil => exact Nat.zero_le k
  | cons x xs ih =>
    exact Nat.max_le.mpr ⟨h x mem_cons_self, ih fun y hy ↦ h y (mem_cons_of_mem x hy)⟩

theorem lt_above {f : α → Nat} {xs : List α} {x : α} (h : x ∈ xs) : f x < above f xs := by
  induction xs with
  | nil => cases h
  | cons y xs ih =>
    rcases mem_cons.mp h with rfl | h
    · exact Nat.le_max_left _ _
    · exact lt_of_lt_of_le (ih h) (Nat.le_max_right _ _)

/-! ### Cycles -/

section

variable {ids : List α} {deps : α → List α} {x : α}

/-- In a finite set without cycles the dependencies are well founded. -/
theorem acc_of_no_cycle (hclosed : ∀ x ∈ ids, ∀ d ∈ deps x, d ∈ ids)
    (hfree : ∀ x, ¬ Relation.TransGen (Below deps) x x) (hx : x ∈ ids) : Acc (Below deps) x := by
  classical
  let r : {x // x ∈ ids.toFinset} → {x // x ∈ ids.toFinset} → Prop := fun a b ↦
    Relation.TransGen (Below deps) a.1 b.1
  have : IsTrans _ r := ⟨fun _ _ _ hab hbc ↦ Relation.TransGen.trans hab hbc⟩
  have : Std.Irrefl r := ⟨fun a ↦ hfree a.1⟩
  have hwf : WellFounded r := Finite.wellFounded_of_trans_of_irrefl r
  suffices h : ∀ a : {x // x ∈ ids.toFinset}, Acc (Below deps) a.1 from h ⟨x, mem_toFinset.mpr hx⟩
  intro a
  induction a using hwf.induction with
  | _ a ih =>
    refine Acc.intro a.1 fun d hd ↦ ?_
    exact ih ⟨d, mem_toFinset.mpr (hclosed _ (mem_toFinset.mp a.2) d hd)⟩ (.single hd)

/-- No cycle goes through a node from which the dependencies are well founded. -/
theorem not_cycle_of_acc (h : Acc (Below deps) x) : ¬ Relation.TransGen (Below deps) x x := by
  induction h with
  | intro x _ ih =>
    intro hcycle
    obtain ⟨d, hto, hd⟩ := Relation.TransGen.tail'_iff.mp hcycle
    exact ih d hd (Relation.TransGen.head' hd hto)

end

/-! ### Layers -/

variable [DecidableEq α]

/-- Every layer is made of the nodes that are not placed yet, and whose dependencies all are. -/
def Peels (ids : List α) (deps : α → List α) : List α → List (List α) → Prop
  | _, [] => True
  | placed, layer :: layers =>
    (∀ x, x ∈ layer ↔ x ∈ ids ∧ x ∉ placed ∧ ∀ d ∈ deps x, d ∈ placed) ∧
      Peels ids deps (placed ++ layer) layers

def level (layers : List (List α)) (x : α) : Nat := layers.findIdx fun layer ↦ decide (x ∈ layer)

section

variable {ids placed : List α} {deps : α → List α} {layers : List (List α)} {layer : List α} {x d : α}
  {k : Nat}

theorem level_lt_length : level layers x < layers.length ↔ x ∈ layers.flatten := by
  rw [level, findIdx_lt_length, mem_flatten]
  simp only [decide_eq_true_eq]

/-- The layers up to an index hold the nodes of a smaller level. -/
theorem mem_take_iff (hk : k ≤ layers.length) : x ∈ (layers.take k).flatten ↔ level layers x < k := by
  rw [← level_lt_length, level, findIdx_take, length_take, Nat.min_eq_left hk, level]
  exact min_lt_iff.trans (or_iff_right (Nat.lt_irrefl k))

omit [DecidableEq α] in
theorem Peels.getElem? (h : Peels ids deps placed layers) (hk : layers[k]? = some layer) :
    x ∈ layer ↔ x ∈ ids ∧ x ∉ placed ++ (layers.take k).flatten ∧
      ∀ d ∈ deps x, d ∈ placed ++ (layers.take k).flatten := by
  induction layers generalizing placed k with
  | nil => cases hk
  | cons first layers ih =>
    cases k with
    | zero =>
      cases hk
      rw [take_zero, flatten_nil, append_nil]
      exact h.1 x
    | succ k =>
      rw [take_succ_cons, flatten_cons, ← append_assoc]
      exact ih h.2 hk

/-- The layer of a node comes right behind the last of its dependencies. -/
theorem Peels.level_eq (h : Peels ids deps [] layers) (hx : x ∈ layers.flatten) :
    level layers x = above (level layers) (deps x) ∧ ∀ d ∈ deps x, d ∈ layers.flatten := by
  have hlt := level_lt_length.mpr hx
  have hmem : x ∈ layers[level layers x] :=
    of_decide_eq_true (findIdx_getElem (p := fun layer ↦ decide (x ∈ layer)) (w := hlt))
  obtain ⟨hids, -, hdeps⟩ := (h.getElem? (getElem?_eq_getElem hlt)).mp hmem
  rw [nil_append] at hdeps
  have hbelow : ∀ d ∈ deps x, level layers d < level layers x := fun d hd ↦
    (mem_take_iff hlt.le).mp (hdeps d hd)
  refine ⟨le_antisymm ?_ (above_le hbelow), fun d hd ↦
    level_lt_length.mp (lt_trans (hbelow d hd) hlt)⟩
  cases hlevel : level layers x with
  | zero => exact Nat.zero_le _
  | succ j =>
    -- the layer before did not take the node, for want of a dependency
    have hj : j < layers.length := by omega
    have hprior : x ∉ layers[j] := fun hin ↦ by
      have hin' : x ∈ (layers.take (j + 1)).flatten := by
        rw [take_succ_eq_append_getElem hj, flatten_append]
        exact mem_append_right _ (mem_flatten_of_mem mem_cons_self hin)
      have := (mem_take_iff (by omega)).mp hin'
      omega
    rw [h.getElem? (getElem?_eq_getElem hj)] at hprior
    have hnew : x ∉ (layers.take j).flatten := fun hin ↦ by
      have := (mem_take_iff hj.le).mp hin
      omega
    obtain ⟨d, hd, hlate⟩ : ∃ d ∈ deps x, d ∉ (layers.take j).flatten := by
      by_contra hall
      push Not at hall
      exact hprior ⟨hids, hnew, hall⟩
    rw [mem_take_iff hj.le, Nat.not_lt] at hlate
    exact lt_of_le_of_lt hlate (lt_above hd)

theorem Peels.level_lt (h : Peels ids deps [] layers) (hx : x ∈ layers.flatten) (hd : d ∈ deps x) :
    level layers d < level layers x :=
  (h.level_eq hx).1 ▸ lt_above hd

/-- Only nodes from which the dependencies are well founded are placed. -/
theorem Peels.acc (h : Peels ids deps [] layers) (hx : x ∈ layers.flatten) : Acc (Below deps) x := by
  induction hlevel : level layers x using Nat.strongRecOn generalizing x with
  | _ k ih =>
    refine Acc.intro x fun d hd ↦ ?_
    exact ih (level layers d) (hlevel ▸ h.level_lt hx hd) ((h.level_eq hx).2 d hd) rfl

omit [DecidableEq α] in
/-- Where nobody is left whose dependencies are all placed, they all are. -/
theorem mem_of_acc (hclosed : ∀ x ∈ ids, ∀ d ∈ deps x, d ∈ ids)
    (hleft : ∀ x ∈ ids, (∀ d ∈ deps x, d ∈ placed) → x ∈ placed) (h : Acc (Below deps) x) (hx : x ∈ ids) :
    x ∈ placed := by
  induction h with
  | intro x _ ih => exact hleft x hx fun d hd ↦ ih d hd (hclosed x hx d hd)

/-- With the layers in reverse, the nodes of a higher level come first. -/
theorem idxOf_reverse_lt (hnodup : layers.flatten.Nodup) (hx : x ∈ layers.flatten)
    (h : level layers d < level layers x) :
    layers.reverse.flatten.idxOf x < layers.reverse.flatten.idxOf d := by
  have hlt := level_lt_length.mpr hx
  have hmem : x ∈ layers[level layers x] :=
    of_decide_eq_true (findIdx_getElem (p := fun layer ↦ decide (x ∈ layer)) (w := hlt))
  -- the layers before that of `x` hold `d`, and no other does
  have hsplit : layers = layers.take (level layers x) ++ layers.drop (level layers x) :=
    (take_append_drop _ _).symm
  have hd : d ∈ (layers.take (level layers x)).flatten := (mem_take_iff hlt.le).mpr h
  have hlater : x ∈ (layers.drop (level layers x)).reverse.flatten := by
    refine mem_flatten_of_mem (mem_reverse.mpr ?_) hmem
    rw [drop_eq_getElem_cons hlt]
    exact mem_cons_self
  have hnot : d ∉ (layers.drop (level layers x)).reverse.flatten := by
    intro hin
    obtain ⟨layer, hlayer, hdl⟩ := mem_flatten.mp hin
    rw [hsplit, flatten_append] at hnodup
    exact (nodup_append.mp hnodup).2.2 d hd d
      (mem_flatten_of_mem (mem_reverse.mp hlayer) hdl) rfl
  have hreverse : layers.reverse.flatten = (layers.drop (level layers x)).reverse.flatten ++
      (layers.take (level layers x)).reverse.flatten := by
    rw [← flatten_append, ← reverse_append, ← hsplit]
  rw [hreverse, idxOf_append_of_mem hlater, idxOf_append_of_notMem hnot]
  exact Nat.lt_add_right _ (idxOf_lt_length_iff.mpr hlater)

end

end Peeling
