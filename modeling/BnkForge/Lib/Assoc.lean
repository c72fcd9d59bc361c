import Mathlib.Data.List.Nodup

/-!
# Association lists and rows

What `List.lookup` finds in a list of keys and values, and what is found in the rows of a table
after a change that a search does not see.
-/

namespace Assoc

open List

variable {α β : Type} [DecidableEq α] {xs : List (α × β)} {k k' : α} {v : β}

theorem mem_of_lookup (h : xs.lookup k = some v) : (k, v) ∈ xs := by
  obtain ⟨l, r, rfl, -⟩ := lookup_eq_some_iff.mp h
  exact mem_append_right l mem_cons_self

theorem lookup_eq_none_iff : xs.lookup k = none ↔ k ∉ xs.map Prod.fst := by
  rw [List.lookup_eq_none_iff, mem_map]
  constructor
  · rintro h ⟨p, hp, rfl⟩
    exact absurd (h p hp) (by rw [bne_self_eq_false]; exact Bool.false_ne_true)
  · intro h p hp
    exact bne_iff_ne.mpr fun heq ↦ h ⟨p, hp, heq.symm⟩

/-- Where no key stands twice, the values of a key are those that stand beside it. -/
theorem lookup_eq_some_iff_mem (hnodup : (xs.map Prod.fst).Nodup) :
    xs.lookup k = some v ↔ (k, v) ∈ xs := by
  refine ⟨mem_of_lookup, fun hmem ↦ ?_⟩
  cases hlookup : xs.lookup k with
  | none => exact absurd (mem_map_of_mem hmem) (lookup_eq_none_iff.mp hlookup)
  | some v' =>
    have heq := inj_on_of_nodup_map hnodup hmem (mem_of_lookup hlookup) rfl
    rw [(Prod.mk.inj heq).2]

theorem lookup_map {γ : Type} (key : γ → α) {f : γ → β} {rows : List γ} {m : γ}
    (hnodup : (rows.map key).Nodup) (hm : m ∈ rows) :
    (rows.map fun r ↦ (key r, f r)).lookup (key m) = some (f m) := by
  refine (lookup_eq_some_iff_mem ?_).mpr (mem_map.mpr ⟨m, hm, rfl⟩)
  rw [map_map]
  exact hnodup

/-- Where no value stands twice, a value has one key. -/
theorem lookup_inj (hnodup : (xs.map Prod.snd).Nodup) (h : xs.lookup k = some v)
    (h' : xs.lookup k' = some v) : k = k' :=
  congrArg Prod.fst (inj_on_of_nodup_map hnodup (mem_of_lookup h) (mem_of_lookup h') rfl)

section Rows

variable {γ : Type} {p : γ → Bool} {f : γ → γ}

theorem find?_map_of_eq (h : ∀ r, p (f r) = p r) (rows : List γ) :
    (rows.map f).find? p = (rows.find? p).map f := by
  have hcomp : p ∘ f = p := funext h
  rw [find?_map, hcomp]

theorem filter_map_of_eq (h : ∀ r, p (f r) = p r) (rows : List γ) :
    (rows.map f).filter p = (rows.filter p).map f := by
  have hcomp : p ∘ f = p := funext h
  rw [filter_map, hcomp]

/-- A column that a change of some rows leaves alone. -/
theorem map_map_ite {c : γ → Prop} [DecidablePred c] {change : γ → γ} {column : γ → β}
    (h : ∀ r, column (change r) = column r) (rows : List γ) :
    (rows.map fun r ↦ if c r then change r else r).map column = rows.map column := by
  rw [map_map]
  refine map_congr_left fun r _ ↦ ?_
  rw [Function.comp_apply]
  split
  · exact h r
  · rfl

end Rows

end Assoc
