import Mathlib.Data.Finset.Max
import Mathlib.Data.List.Chain
import Mathlib.Logic.Relation

/-!
# Ranked finite relations

An acyclic dependency relation is given by a rank that every edge lowers. Over finitely many
elements nothing can go on along the edges forever, in either direction.
-/

namespace Rank

universe u

variable {α : Type u} {ids : List α} {rank : α → Nat} {P : α → Prop}

/-- A property of finitely many elements that always passes on to an element of greater rank
holds of none. -/
theorem not_of_ascending (hids : ∀ x, P x → x ∈ ids) (hup : ∀ x, P x → ∃ y, P y ∧ rank x < rank y) :
    ∀ x, ¬ P x := by
  classical
  intro x hx
  have hne : (ids.toFinset.filter P).Nonempty :=
    ⟨x, Finset.mem_filter.mpr ⟨List.mem_toFinset.mpr (hids x hx), hx⟩⟩
  obtain ⟨top, htop, hmax⟩ := Finset.exists_max_image _ rank hne
  obtain ⟨y, hy, hlt⟩ := hup top (Finset.mem_filter.mp htop).2
  have hle := hmax y (Finset.mem_filter.mpr ⟨List.mem_toFinset.mpr (hids y hy), hy⟩)
  omega

variable {r r' : α → α → Prop} {a b : α}

/-- Paths from a closed set are paths of any relation that has its edges there. -/
theorem transGen_of_closed (hclosed : ∀ x y, P x → r x y → P y) (hedge : ∀ x y, P x → r x y → r' x y)
    (ha : P a) (h : Relation.TransGen r a b) : Relation.TransGen r' a b := by
  induction h using Relation.TransGen.head_induction_on with
  | single hab => exact .single (hedge _ _ ha hab)
  | head hac _ ih => exact .head (hedge _ _ ha hac) (ih (hclosed _ _ ha hac))

variable (rank) in
/-- From a closed set whose edges lower a rank no path comes back. -/
theorem not_transGen_self (hclosed : ∀ x y, P x → r x y → P y)
    (hlower : ∀ x y, P x → r x y → rank y < rank x) (ha : P a) : ¬ Relation.TransGen r a a := by
  intro h
  have hlt : Relation.TransGen (fun x y ↦ rank y < rank x) a a :=
    transGen_of_closed hclosed hlower ha h
  have : IsTrans α fun x y ↦ rank y < rank x := ⟨fun _ _ _ hxy hyz ↦ lt_trans hyz hxy⟩
  rw [Relation.transGen_eq_self] at hlt
  exact lt_irrefl _ hlt

/-- The ends of a walk of at least one edge. -/
theorem transGen_of_isChain {inner : List α} (h : (a :: inner ++ [b]).IsChain r) :
    Relation.TransGen r a b := by
  induction inner generalizing a with
  | nil => exact .single (List.isChain_pair.mp h)
  | cons c inner ih =>
    obtain ⟨hac, hrest⟩ := List.isChain_cons_cons.mp h
    exact .head hac (ih hrest)

/-- A walk that comes back to a node on it. -/
theorem transGen_of_mem_walk {path : List α} (h : (path ++ [a]).IsChain r) (hmem : a ∈ path) :
    Relation.TransGen r a a := by
  obtain ⟨before, after, rfl⟩ := List.append_of_mem hmem
  rw [List.append_assoc] at h
  exact transGen_of_isChain h.right_of_append

end Rank
