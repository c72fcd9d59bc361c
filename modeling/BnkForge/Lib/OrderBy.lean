import Mathlib.Data.List.Sort
import Mathlib.Order.Basic

/-!
# `ORDER BY`

Rows in the order of a comparison, as a query returns them: the comparison is put together from the columns,
and a column that may be null says at which end its nulls stand. Where no two rows tie, the rows in the
reversed order are the reversed rows, and what a query keeps of them does not depend on when they are sorted.
-/

namespace OrderBy

variable {α β : Type*}

/-! ### Columns -/

/-- `column ASC`. -/
def asc [Ord β] (column : α → β) (a b : α) : Ordering := compare (column a) (column b)

/-- `column DESC`. -/
def desc [Ord β] (column : α → β) (a b : α) : Ordering := compare (column b) (column a)

/-- `NULLS FIRST`, over how the other values compare. -/
def nullsFirst (cmp : β → β → Ordering) (column : α → Option β) (a b : α) : Ordering :=
  match column a, column b with
  | none, none => .eq
  | none, some _ => .lt
  | some _, none => .gt
  | some x, some y => cmp x y

/-- `NULLS LAST`, over how the other values compare. -/
def nullsLast (cmp : β → β → Ordering) (column : α → Option β) (a b : α) : Ordering :=
  match column a, column b with
  | none, none => .eq
  | none, some _ => .gt
  | some _, none => .lt
  | some x, some y => cmp x y

theorem desc_eq_asc [Ord β] (column : α → β) (a b : α) : desc column a b = asc column b a := rfl

theorem nullsLast_flip (cmp : β → β → Ordering) (column : α → Option β) (a b : α) :
    nullsLast (fun x y ↦ cmp y x) column a b = nullsFirst cmp column b a := by
  unfold nullsLast nullsFirst
  cases column a <;> cases column b <;> rfl

instance [Ord β] [Std.TransOrd β] (column : α → β) : Std.TransCmp (asc column) :=
  inferInstanceAs (Std.TransCmp (compareOn column))

instance {cmp : β → β → Ordering} [Std.TransCmp cmp] (column : α → Option β) :
    Std.TransCmp (nullsFirst cmp column) where
  eq_swap {a b} := by
    unfold nullsFirst
    cases column a <;> cases column b
    case some.some => exact Std.OrientedCmp.eq_swap
    all_goals rfl
  isLE_trans {a b c} := by
    unfold nullsFirst
    cases column a <;> cases column b <;> cases column c
    case some.some.some => exact Std.TransCmp.isLE_trans
    all_goals
      intro hab hbc
      first | rfl | exact hbc | cases hab

/-! ### Sorted rows -/

def sorted (cmp : α → α → Ordering) (rows : List α) : List α := rows.mergeSort fun a b ↦ (cmp a b).isLE

section

variable {cmp : α → α → Ordering} {rows : List α}

theorem sorted_perm : (sorted cmp rows).Perm rows := List.mergeSort_perm rows _

@[simp] theorem mem_sorted {a : α} : a ∈ sorted cmp rows ↔ a ∈ rows := sorted_perm.mem_iff

variable (cmp rows) in
theorem pairwise_sorted [Std.TransCmp cmp] : (sorted cmp rows).Pairwise fun a b ↦ (cmp a b).isLE := by
  refine List.pairwise_mergeSort (fun a b c ↦ Std.TransCmp.isLE_trans) (fun a b ↦ ?_) rows
  have hswap : cmp b a = (cmp a b).swap := Std.OrientedCmp.eq_swap
  rw [hswap]
  cases cmp a b <;> rfl

/-- The first row comes before all others. -/
theorem isLE_of_head? [Std.TransCmp cmp] {a b : α} (h : (sorted cmp rows).head? = some a) (hb : b ∈ rows) :
    (cmp a b).isLE := by
  obtain ⟨rest, hrest⟩ := List.head?_eq_some_iff.mp h
  have hpairwise := pairwise_sorted cmp rows
  have hb' : b ∈ sorted cmp rows := mem_sorted.mpr hb
  rw [hrest] at hpairwise hb'
  rcases List.mem_cons.mp hb' with rfl | hb'
  · exact Std.ReflCmp.isLE_rfl
  · exact List.rel_of_pairwise_cons hpairwise hb'

/-- Different rows do not tie. -/
def Untied (cmp : α → α → Ordering) (rows : List α) : Prop :=
  ∀ a ∈ rows, ∀ b ∈ rows, cmp a b = .eq → a = b

theorem eq_sorted [Std.TransCmp cmp] (huntied : Untied cmp rows) {rows' : List α}
    (hperm : rows'.Perm rows) (hpairwise : rows'.Pairwise fun a b ↦ (cmp a b).isLE) :
    rows' = sorted cmp rows := by
  refine List.Perm.eq_of_pairwise (fun a b ha hb hab hba ↦ ?_) hpairwise (pairwise_sorted _ _)
    (hperm.trans sorted_perm.symm)
  refine huntied a (hperm.mem_iff.mp ha) b (mem_sorted.mp hb) ?_
  exact Std.OrientedCmp.isLE_antisymm hab hba

theorem sorted_reverse {cmp' : α → α → Ordering} [Std.TransCmp cmp] (huntied : Untied cmp rows)
    (hmirror : ∀ a b, cmp' a b = cmp b a) : sorted cmp' rows = (sorted cmp rows).reverse := by
  obtain rfl : cmp' = fun a b ↦ cmp b a := funext fun a ↦ funext fun b ↦ hmirror a b
  refine (eq_sorted (fun a ha b hb h ↦ (huntied b hb a ha h).symm) ?_ ?_).symm
  · exact (List.reverse_perm _).trans sorted_perm
  · exact List.pairwise_reverse.mpr (pairwise_sorted _ _)

theorem filter_sorted [Std.TransCmp cmp] (huntied : Untied cmp rows) (p : α → Bool) :
    (sorted cmp rows).filter p = sorted cmp (rows.filter p) := by
  refine eq_sorted (fun a ha b hb ↦ huntied a (List.mem_of_mem_filter ha) b (List.mem_of_mem_filter hb)) ?_ ?_
  · exact sorted_perm.filter p
  · exact (pairwise_sorted _ _).filter p

end

end OrderBy
