import Mathlib.Algebra.BigOperators.Group.List.Basic
import Mathlib.Algebra.GroupWithZero.Nat
import Mathlib.Algebra.Order.Group.Nat

/-!
# Potentials

The potential of a list of workers is the sum of what each may still do. A worker that spawns
others pays for them in advance; where every worker spawns workers of lower rank only, such
prices exist.
-/

namespace Potential

universe u

variable {α : Type u}

/-- The potential of one worker and of the others. -/
theorem sum_eq_add_eraseIdx (f : α → Nat) {l : List α} {j : Nat} {a : α} (ha : l[j]? = some a) :
    (l.map f).sum = f a + ((l.eraseIdx j).map f).sum := by
  obtain ⟨hj, rfl⟩ := List.getElem?_eq_some_iff.mp ha
  have hsum := List.CommMonoid.add_sum_eraseIdx (l := l.map f) (i := j) (by simpa using hj)
  rw [List.eraseIdx_map, List.getElem_map] at hsum
  exact hsum.symm

/-- Replacing a worker changes the potential by what the worker's own changes. -/
theorem sum_set (f : α → Nat) {l : List α} {j : Nat} {a : α} (b : α) (ha : l[j]? = some a) :
    ((l.set j b).map f).sum + f a = (l.map f).sum + f b := by
  obtain ⟨hj, -⟩ := List.getElem?_eq_some_iff.mp ha
  have hset : (l.set j b)[j]? = some b := List.getElem?_set_self hj
  rw [sum_eq_add_eraseIdx f hset, sum_eq_add_eraseIdx f ha, List.eraseIdx_set_eq]
  omega

variable (next : α → List α) (base : Nat)

/-- The price of an element, with the recursion cut off at depth `n`. -/
private def price : Nat → α → Nat
  | 0, _ => 0
  | n + 1, x => base + ((next x).map fun y ↦ 2 + price n y).sum

/-- Along edges that lower a rank, every element has a price that covers `base` and, for each
edge, two units and the price at its other end. -/
theorem exists_price {rank : α → Nat} (h : ∀ x, ∀ y ∈ next x, rank y < rank x) :
    ∃ cost : α → Nat, ∀ x, cost x = base + ((next x).map fun y ↦ 2 + cost y).sum := by
  -- from depth `rank x + 1` on the cut-off is not felt
  have hstable : ∀ n x, rank x < n → price next base n x = price next base (rank x + 1) x := by
    intro n
    induction n using Nat.strongRecOn with
    | _ n ih =>
      intro x hx
      obtain ⟨n, rfl⟩ : ∃ k, n = k + 1 := ⟨n - 1, by omega⟩
      simp only [price]
      congr 2
      apply List.map_congr_left
      intro y hy
      have hyx := h x y hy
      by_cases heq : n = rank x
      · rw [heq]
      · rw [ih n (by omega) y (by omega), ih (rank x) (by omega) y hyx]
  refine ⟨fun x ↦ price next base (rank x + 1) x, fun x ↦ ?_⟩
  simp only [price]
  congr 2
  apply List.map_congr_left
  intro y hy
  exact congrArg (2 + ·) (hstable (rank x) y (h x y hy))

end Potential
