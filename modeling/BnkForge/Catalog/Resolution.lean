import BnkForge.Lib.Dict
import BnkForge.Lib.OrderBy

/-!
# The row of a path

`resolve_module_row` and `resolve_module_rows_by_path` (`backend/services/module_resolution.py:35–138`):
one takes the first of the rows of a path, the other goes through the rows of many paths the other way
round, where the last row of a path stays. The columns that hold times may be null.
-/

namespace BnkForge.ModuleResolution

open OrderBy List

/-- The columns of `module_library` (`backend/models/module.py:24–93`) that the resolvers read; `τ` are the
times. -/
structure Row (τ : Type) where
  id : Nat
  path : Option String
  isLatest : Bool
  isActive : Option Bool
  lastSynced : Option τ

structure Table (τ : Type) where
  rows : List (Row τ)
  ids : (rows.map Row.id).Nodup

variable {τ : Type} [LinearOrder τ]

/-- `_row_order`. -/
def rowOrder : Row τ → Row τ → Ordering :=
  compareLex (desc Row.isLatest)
    (compareLex (nullsLast (fun s t ↦ compare t s) Row.lastSynced) (desc Row.id))

/-- `_map_order`. -/
def mapOrder : Row τ → Row τ → Ordering :=
  compareLex (asc Row.isLatest) (compareLex (nullsFirst compare Row.lastSynced) (asc Row.id))

/-- `resolve_module_row`. -/
def resolveModuleRow (table : Table τ) (modulePath : String) : Option (Row τ) :=
  (sorted rowOrder
    (table.rows.filter fun r ↦ r.path = some modulePath && r.isActive = some true)).head?

def entry (r : Row τ) : Option (String × Row τ) := r.path.map fun path ↦ (path, r)

/-- `resolve_module_rows_by_path`. -/
def resolveModuleRowsByPath (table : Table τ) (modulePaths : List String) : Dict String (Row τ) :=
  if modulePaths.isEmpty then .empty
  else
    let rows := sorted mapOrder
      (table.rows.filter fun r ↦ r.path.any (modulePaths.contains ·) && r.isActive = some true)
    Dict.empty.setAll (rows.filterMap entry)

/-! ### The orders -/

theorem mapOrder_eq (a b : Row τ) : mapOrder a b = rowOrder b a := by
  simp only [mapOrder, rowOrder, compareLex, nullsLast_flip, desc_eq_asc]

instance : Std.TransCmp (mapOrder (τ := τ)) :=
  inferInstanceAs (Std.TransCmp (compareLex _ (compareLex _ _)))

instance : Std.TransCmp (rowOrder (τ := τ)) := by
  have h : rowOrder (τ := τ) = fun a b ↦ mapOrder b a := funext fun a ↦ funext fun b ↦ (mapOrder_eq b a).symm
  rw [h]
  infer_instance

theorem untied (table : Table τ) {p : Row τ → Bool} : Untied rowOrder (table.rows.filter p) := by
  intro a ha b hb h
  have hid : compare b.id a.id = .eq := (compareLex_eq_eq.mp (compareLex_eq_eq.mp h).2).2
  exact inj_on_of_nodup_map table.ids (mem_of_mem_filter ha) (mem_of_mem_filter hb)
    (Nat.compare_eq_eq.mp hid).symm

/-! ### The two resolvers -/

omit [LinearOrder τ] in
theorem lookup_entries (rows : List (Row τ)) (path : String) :
    (rows.filterMap entry).lookup path = rows.find? fun r ↦ r.path = some path := by
  induction rows with
  | nil => rfl
  | cons r rows ih =>
    cases hpath : r.path with
    | none => simp [entry, hpath, ih]
    | some p =>
      by_cases hp : path = p
      · simp [entry, hpath, hp]
      · have hbeq : (path == p) = false := beq_eq_false_iff_ne.mpr hp
        simp [entry, hpath, Ne.symm hp, ih, lookup_cons, hbeq]

omit [LinearOrder τ] in
theorem filter_paths (table : Table τ) {modulePaths : List String} {path : String}
    (h : path ∈ modulePaths) :
    (table.rows.filter fun r ↦ r.path.any (modulePaths.contains ·) && r.isActive = some true).filter
        (fun r ↦ r.path = some path) =
      table.rows.filter fun r ↦ r.path = some path && r.isActive = some true := by
  rw [filter_filter]
  refine filter_congr fun r _ ↦ ?_
  by_cases hr : r.path = some path
  · simp [hr, h]
  · simp [hr]

theorem get?_resolveModuleRowsByPath (table : Table τ) {modulePaths : List String} {path : String}
    (h : path ∈ modulePaths) :
    (resolveModuleRowsByPath table modulePaths).get? path = resolveModuleRow table path := by
  have hne : modulePaths.isEmpty = false := by
    rw [isEmpty_eq_false_iff]
    exact ne_nil_of_mem h
  simp only [resolveModuleRowsByPath, resolveModuleRow, hne, Bool.false_eq_true, if_false]
  rw [Dict.get?_setAll, Dict.get?_empty, Option.or_none, ← filterMap_reverse, lookup_entries,
    sorted_reverse (untied table) mapOrder_eq, reverse_reverse, ← head?_filter,
    filter_sorted (untied table), filter_paths table h]

theorem get?_eq_none_of_notMem (table : Table τ) {modulePaths : List String} {path : String}
    (h : path ∉ modulePaths) : (resolveModuleRowsByPath table modulePaths).get? path = none := by
  unfold resolveModuleRowsByPath
  split
  · rfl
  · rw [Dict.get?_setAll, Dict.get?_empty, Option.or_none, ← filterMap_reverse, lookup_entries,
      find?_eq_none]
    intro r hr hpath
    rw [mem_reverse, mem_sorted, mem_filter] at hr
    rw [decide_eq_true_iff] at hpath
    simp [hpath, h] at hr

theorem mem_of_resolveModuleRow {table : Table τ} {path : String} {row : Row τ}
    (h : resolveModuleRow table path = some row) :
    row ∈ table.rows ∧ row.path = some path ∧ row.isActive = some true := by
  have hrow := mem_sorted.mp (mem_of_head? h)
  simpa [mem_filter] using hrow

theorem isLatest_of_resolveModuleRow {table : Table τ} {path : String} {row r : Row τ}
    (h : resolveModuleRow table path = some row) (hr : r ∈ table.rows) (hpath : r.path = some path)
    (hactive : r.isActive = some true) (hlatest : r.isLatest = true) : row.isLatest = true := by
  have hle : (rowOrder row r).isLE := isLE_of_head? h (by simp [hr, hpath, hactive])
  by_contra hnot
  have hgt : desc Row.isLatest row r = .gt := by
    rw [Bool.not_eq_true] at hnot
    rw [desc, hlatest, hnot]
    rfl
  rw [rowOrder, compareLex, hgt] at hle
  cases hle

/-- Both resolvers find the same row of a path, which is an active one, and the latest if any is. -/
theorem resolvers_agree (table : Table τ) (modulePaths : List String) (path : String) :
    (resolveModuleRowsByPath table modulePaths).get? path =
        (if path ∈ modulePaths then resolveModuleRow table path else none) ∧
      ∀ row, resolveModuleRow table path = some row →
        row ∈ table.rows ∧ row.path = some path ∧ row.isActive = some true ∧
          ((∃ r ∈ table.rows, r.path = some path ∧ r.isActive = some true ∧ r.isLatest = true) →
            row.isLatest = true) := by
  refine ⟨?_, fun row h ↦ ?_⟩
  · split
    · next hmem => exact get?_resolveModuleRowsByPath table hmem
    · next hmem => exact get?_eq_none_of_notMem table hmem
  · obtain ⟨hrow, hpath, hactive⟩ := mem_of_resolveModuleRow h
    refine ⟨hrow, hpath, hactive, ?_⟩
    rintro ⟨r, hr, hrpath, hractive, hlatest⟩
    exact isLatest_of_resolveModuleRow h hr hrpath hractive hlatest

end BnkForge.ModuleResolution
