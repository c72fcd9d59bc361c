import BnkForge.Lib.Assoc
import BnkForge.Lib.PythonValue

/-!
# Equality of Python values

`==` is symmetric on values whose dicts have each key once. It need not be reflexive: a float may be
no number.
-/

namespace Python.Value

mutual

/-- Every dict has each of its keys once. -/
def WellFormed : Value → Prop
  | .list xs => WellFormedList xs
  | .dict xs => (xs.map Prod.fst).Nodup ∧ WellFormedItems xs
  | _ => True

def WellFormedList : List Value → Prop
  | [] => True
  | x :: xs => WellFormed x ∧ WellFormedList xs

def WellFormedItems : List (String × Value) → Prop
  | [] => True
  | (_, x) :: xs => WellFormed x ∧ WellFormedItems xs

end

variable {v x y : Value} {xs ys : List (String × Value)} {key : String}

theorem wellFormedItems_iff : WellFormedItems xs ↔ ∀ i ∈ xs, WellFormed i.2 := by
  induction xs with
  | nil => simp [WellFormedItems]
  | cons i xs ih => simp [WellFormedItems, ih]

theorem wellFormedList_iff {vs : List Value} : WellFormedList vs ↔ ∀ v ∈ vs, WellFormed v := by
  induction vs with
  | nil => simp [WellFormedList]
  | cons v vs ih => simp [WellFormedList, ih]

theorem WellFormed.nodup (h : WellFormed v) : (v.items.map Prod.fst).Nodup := by
  cases v with
  | dict xs => exact h.1
  | _ => exact List.nodup_nil

theorem WellFormed.of_mem_items {i : String × Value} (h : WellFormed v) (hi : i ∈ v.items) :
    WellFormed i.2 := by
  cases v with
  | dict xs => exact wellFormedItems_iff.mp h.2 i hi
  | _ => cases hi

theorem WellFormed.get (h : WellFormed v) (key : String) : WellFormed (v.get key) := by
  unfold Value.get
  cases hlookup : v.items.lookup key with
  | none => trivial
  | some x => exact h.of_mem_items (Assoc.mem_of_lookup hlookup)

theorem equalsItems_iff : equalsItems xs ys = true ↔
    ∀ i ∈ xs, ∃ y, ys.lookup i.1 = some y ∧ equals i.2 y = true := by
  induction xs with
  | nil => simp [equalsItems]
  | cons i xs ih =>
    obtain ⟨key, x⟩ := i
    rw [equalsItems, Bool.and_eq_true, ih, List.forall_mem_cons]
    refine and_congr_left fun _ ↦ ?_
    cases hlookup : ys.lookup key with
    | none => simp
    | some y => simp

/-- The keys of a dict that has an equal value for each key of another one of its length are those of
the other one. -/
theorem keys_subset_of_equalsItems (hx : (xs.map Prod.fst).Nodup) (hlen : xs.length = ys.length)
    (h : equalsItems xs ys = true) : ys.map Prod.fst ⊆ xs.map Prod.fst := by
  have hsub : xs.map Prod.fst ⊆ ys.map Prod.fst := by
    intro key hkey
    obtain ⟨i, hi, rfl⟩ := List.mem_map.mp hkey
    obtain ⟨y, hy, -⟩ := equalsItems_iff.mp h i hi
    exact List.mem_map.mpr ⟨_, Assoc.mem_of_lookup hy, rfl⟩
  have hperm := (List.subperm_of_subset hx hsub).perm_of_length_le (by simp [hlen])
  exact hperm.symm.subset

theorem numberEquals_comm (a b : FloatValue) : (a == b && a != .nan) = (b == a && b != .nan) := by
  by_cases h : a = b
  · rw [h]
  · rw [beq_false_of_ne h, beq_false_of_ne (Ne.symm h), Bool.false_and, Bool.false_and]

theorem equalsItems_symm (hx : (xs.map Prod.fst).Nodup) (hy : (ys.map Prod.fst).Nodup)
    (hlen : xs.length = ys.length)
    (ih : ∀ i ∈ xs, ∀ y, WellFormed y → equals i.2 y = true → equals y i.2 = true)
    (hys : WellFormedItems ys) (h : equalsItems xs ys = true) : equalsItems ys xs = true := by
  refine equalsItems_iff.mpr fun j hj ↦ ?_
  obtain ⟨i, hi, heq⟩ := List.mem_map.mp (keys_subset_of_equalsItems hx hlen h (List.mem_map_of_mem hj))
  obtain ⟨y, hlookup, hequal⟩ := equalsItems_iff.mp h i hi
  -- the value that the key of `i` has in the other dict is that of `j`
  have hj' : ys.lookup i.1 = some j.2 := (Assoc.lookup_eq_some_iff_mem hy).mpr (heq ▸ hj)
  obtain rfl : j.2 = y := Option.some_injective _ (hj'.symm.trans hlookup)
  exact ⟨i.2, (Assoc.lookup_eq_some_iff_mem hx).mpr (heq ▸ hi),
    ih i hi j.2 (wellFormedItems_iff.mp hys j hj) hequal⟩

mutual

theorem equals_symm (x y : Value) (hx : WellFormed x) (hy : WellFormed y) (h : equals x y = true) :
    equals y x = true := by
  cases x with
  | list xs =>
    cases y with
    | list ys =>
      rw [equals] at h ⊢
      exact equalsList_symm xs ys hx hy h
    | _ => simp [equals, asNumber] at h
  | dict xs =>
    cases y with
    | dict ys =>
      rw [equals, Bool.and_eq_true, beq_iff_eq] at h ⊢
      exact ⟨h.1.symm, equalsItems_symm hx.1 hy.1 h.1 (equals_symm_items xs hx.2) hy.2 h.2⟩
    | _ => simp [equals, asNumber] at h
  | _ =>
    cases y
    all_goals simp only [equals, asNumber] at h ⊢
    all_goals first
      | exact Bool.noConfusion h
      | rwa [numberEquals_comm]
      | exact beq_iff_eq.mpr (beq_iff_eq.mp h).symm

theorem equalsList_symm (xs ys : List Value) (hx : WellFormedList xs) (hy : WellFormedList ys)
    (h : equalsList xs ys = true) : equalsList ys xs = true := by
  cases xs with
  | nil => cases ys <;> simp_all [equalsList]
  | cons x xs =>
    cases ys with
    | nil => simp [equalsList] at h
    | cons y ys =>
      rw [equalsList, Bool.and_eq_true] at h ⊢
      exact ⟨equals_symm x y hx.1 hy.1 h.1, equalsList_symm xs ys hx.2 hy.2 h.2⟩

theorem equals_symm_items (xs : List (String × Value)) (hx : WellFormedItems xs) :
    ∀ i ∈ xs, ∀ y, WellFormed y → equals i.2 y = true → equals y i.2 = true := by
  cases xs with
  | nil => simp
  | cons i xs =>
    obtain ⟨key, x⟩ := i
    refine List.forall_mem_cons.mpr ⟨fun y hy h ↦ ?_, equals_symm_items xs hx.2⟩
    exact equals_symm x y hx.1 hy h

end

/-- On well-formed values `==` does not depend on the side. -/
theorem equals_comm (hx : WellFormed x) (hy : WellFormed y) : equals x y = equals y x :=
  Bool.eq_iff_iff.mpr ⟨equals_symm x y hx hy, equals_symm y x hy hx⟩

end Python.Value
