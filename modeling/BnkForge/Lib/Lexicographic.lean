import BnkForge.Lib.Path
import Mathlib.Data.List.Lex
import Mathlib.Data.Prod.Lex
import Mathlib.Order.Compare

/-!
# Lexicographic comparison

How pairs and lists compare part by part, and how texts compare that are put together from segments behind a
separator: the first segments that differ decide, but for the separator, which may stand where the longer
segment goes on.
-/

namespace Lexicographic

open List

variable {α β : Type} [LinearOrder α] [LinearOrder β]

/-- How two elements compare. -/
def comparison (a b : α) : Ordering := cmp a b

@[simp] theorem comparison_self (a : α) : comparison a a = .eq := cmp_self_eq_eq a

theorem comparison_eq_lt (a b : α) : comparison a b = .lt ↔ a < b := cmp_eq_lt_iff a b

theorem comparison_eq_gt (a b : α) : comparison a b = .gt ↔ b < a := cmp_eq_gt_iff a b

theorem comparison_eq_eq (a b : α) : comparison a b = .eq ↔ a = b := cmp_eq_eq_iff a b

theorem comparison_swap (a b : α) : (comparison a b).swap = comparison b a := cmp_swap a b

theorem comparison_toLex (a c : α) (b d : β) :
    comparison (toLex (a, b)) (toLex (c, d)) = (comparison a c).then (comparison b d) := by
  simp only [comparison, cmp, cmpUsing, Prod.Lex.toLex_lt_toLex]
  rcases lt_trichotomy a c with h | rfl | h
  · simp [h]
  · simp
  · simp [h, h.ne', h.not_gt]

@[simp] theorem comparison_cons_cons (a b : α) (as bs : List α) :
    comparison (a :: as) (b :: bs) = (comparison a b).then (comparison as bs) := by
  rcases lt_trichotomy a b with h | rfl | h
  · rw [(comparison_eq_lt a b).mpr h]
    exact (comparison_eq_lt _ _).mpr (cons_lt_cons_iff.mpr (Or.inl h))
  · rw [comparison_self, Ordering.eq_then]
    rcases lt_trichotomy as bs with h | rfl | h
    · rw [(comparison_eq_lt as bs).mpr h]
      exact (comparison_eq_lt _ _).mpr (cons_lt_cons_iff.mpr (Or.inr ⟨rfl, h⟩))
    · rw [comparison_self, comparison_self]
    · rw [(comparison_eq_gt as bs).mpr h]
      exact (comparison_eq_gt _ _).mpr (cons_lt_cons_iff.mpr (Or.inr ⟨rfl, h⟩))
  · rw [(comparison_eq_gt a b).mpr h]
    exact (comparison_eq_gt _ _).mpr (cons_lt_cons_iff.mpr (Or.inl h))

theorem append_lt_append_left_iff (xs as bs : List α) : xs ++ as < xs ++ bs ↔ as < bs := by
  induction xs with
  | nil => rfl
  | cons x xs ih => simp [ih]

@[simp] theorem comparison_append_left (xs as bs : List α) :
    comparison (xs ++ as) (xs ++ bs) = comparison as bs := by
  induction xs with
  | nil => rfl
  | cons x xs ih =>
    rw [cons_append, cons_append, comparison_cons_cons, comparison_self, ih, Ordering.eq_then]

/-- Where neither text goes on behind the other, what follows them does not matter. -/
theorem append_lt_append {xs ys : List α} (h : xs < ys) (hnot : ¬ xs <+: ys) (s t : List α) :
    xs ++ s < ys ++ t := by
  induction xs generalizing ys with
  | nil => exact absurd nil_prefix hnot
  | cons x xs ih =>
    cases ys with
    | nil => exact absurd h (not_lt_nil _)
    | cons y ys =>
      rw [cons_append, cons_append, cons_lt_cons_iff]
      rcases cons_lt_cons_iff.mp h with hlt | ⟨rfl, hlt⟩
      · exact Or.inl hlt
      · rw [prefix_cons_inj] at hnot
        exact Or.inr ⟨rfl, ih hlt hnot⟩

variable {sep : α}

/-- A segment that comes first keeps its place unless it goes on behind the separator where the other one goes
on with something before the separator. -/
theorem append_joined_lt_iff {xs ys : List α} (h : xs < ys) (hys : sep ∉ ys) (rest rest' : List (List α)) :
    xs ++ Path.joined sep rest < ys ++ Path.joined sep rest' ↔
      rest = [] ∨ ¬ ∃ c < sep, xs ++ [c] <+: ys := by
  by_cases hnot : xs <+: ys
  · obtain ⟨more, rfl⟩ := hnot
    rw [append_assoc, append_lt_append_left_iff]
    cases more with
    | nil => exact absurd h (by simp)
    | cons c more =>
      have hc : c ≠ sep := fun hc ↦ hys (by simp [hc])
      cases rest with
      | nil => simp
      | cons s rest =>
        have hiff : (∃ d < sep, xs ++ [d] <+: xs ++ c :: more) ↔ c < sep := by
          simp [prefix_append_right_inj]
        rw [hiff, Path.joined_cons, cons_append, cons_lt_cons_iff, not_lt]
        simp [hc.symm, le_iff_lt_or_eq]
  · refine iff_of_true (append_lt_append h hnot _ _) (Or.inr ?_)
    rintro ⟨c, -, hc⟩
    exact hnot ((prefix_append xs [c]).trans hc)

end Lexicographic
