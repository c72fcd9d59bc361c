import BnkForge.Lib.Assoc
import BnkForge.Lib.ExceptResult
import Mathlib.Algebra.GroupWithZero.Nat
import Mathlib.Data.Option.Defs

/-!
# Dicts of Python

The items of a dict in the order in which their keys were inserted, no key twice, with the operations
`d.get(k)`, `k in d`, `d[k] = v`, `del d[k]` and `d.update(e)`.
-/

universe u v

structure Dict (K : Type u) (V : Type v) where
  items : List (K × V)
  nodup : (items.map Prod.fst).Nodup

namespace Dict

open List

variable {K V : Type} [DecidableEq K]

/-- `{}`. -/
def empty : Dict K V := ⟨[], List.nodup_nil⟩

def keys (d : Dict K V) : List K := d.items.map Prod.fst

instance : Membership K (Dict K V) := ⟨fun d k ↦ k ∈ d.keys⟩

instance (k : K) (d : Dict K V) : Decidable (k ∈ d) := inferInstanceAs (Decidable (k ∈ d.keys))

/-- The value of a key. -/
def get? (d : Dict K V) (k : K) : Option V := d.items.lookup k

/-- The items after `d[k] = v`: a key that is there keeps its place. -/
def setItems (items : List (K × V)) (k : K) (v : V) : List (K × V) :=
  if k ∈ items.map Prod.fst then items.map fun i ↦ if i.1 = k then (k, v) else i else items ++ [(k, v)]

theorem keys_setItems (items : List (K × V)) (k : K) (v : V) : (setItems items k v).map Prod.fst =
    if k ∈ items.map Prod.fst then items.map Prod.fst else items.map Prod.fst ++ [k] := by
  unfold setItems
  split
  · rw [map_map]
    refine map_congr_left fun i _ ↦ ?_
    rw [Function.comp_apply]
    split
    case isTrue h => exact h.symm
    case isFalse => rfl
  · rw [map_append]
    rfl

theorem nodup_setItems {items : List (K × V)} (h : (items.map Prod.fst).Nodup) (k : K) (v : V) :
    ((setItems items k v).map Prod.fst).Nodup := by
  rw [keys_setItems]
  split
  · exact h
  case isFalse hk =>
    refine nodup_append.mpr ⟨h, nodup_singleton k, fun x hx y hy hxy ↦ hk ?_⟩
    rwa [hxy, mem_singleton.mp hy] at hx

/-- `d[k] = v`. -/
def set (d : Dict K V) (k : K) (v : V) : Dict K V := ⟨setItems d.items k v, nodup_setItems d.nodup k v⟩

/-- `del d[k]`. -/
def erase (d : Dict K V) (k : K) : Dict K V where
  items := d.items.filter fun i ↦ i.1 ≠ k
  nodup := (List.filter_sublist.map Prod.fst).nodup d.nodup

def setAll (d : Dict K V) (items : List (K × V)) : Dict K V := items.foldl (fun d i ↦ d.set i.1 i.2) d

/-- `d.update(e)`. -/
def update (d e : Dict K V) : Dict K V := d.setAll e.items

/-- `d.setdefault(k, []).append(v)` for each entry of a list. -/
def group (entries : List (K × V)) : Dict K (List V) :=
  entries.foldl (fun d e ↦ d.set e.1 ((d.get? e.1).getD [] ++ [e.2])) ⟨[], List.nodup_nil⟩

def eraseAll (d : Dict K V) (ks : List K) : Dict K V := ks.foldl erase d

variable {d e : Dict K V} {k k' : K} {v : V} {items : List (K × V)} {ks : List K}

theorem mem_iff : k ∈ d ↔ ∃ v, d.get? k = some v := by
  rw [← Option.isSome_iff_exists, ← Option.ne_none_iff_isSome, get?, Ne, Assoc.lookup_eq_none_iff,
    not_not]
  rfl

theorem get?_eq_none_iff : d.get? k = none ↔ k ∉ d := Assoc.lookup_eq_none_iff

@[simp] theorem get?_empty : (empty : Dict K V).get? k = none := rfl

theorem get?_eq_some_iff : d.get? k = some v ↔ (k, v) ∈ d.items := Assoc.lookup_eq_some_iff_mem d.nodup

theorem lookup_setItems_self : (setItems items k v).lookup k = some v := by
  unfold setItems
  split
  case isTrue hk =>
    induction items with
    | nil => cases hk
    | cons i items ih =>
      rw [map_cons]
      by_cases hi : i.1 = k
      · rw [if_pos hi, lookup_cons_self]
      · rw [if_neg hi, lookup_cons, beq_false_of_ne (Ne.symm hi)]
        exact ih ((mem_cons.mp hk).resolve_left (Ne.symm hi))
  case isFalse hk =>
    rw [lookup_append, Assoc.lookup_eq_none_iff.mpr hk, Option.none_or, lookup_cons_self]

theorem lookup_setItems_of_ne (h : k' ≠ k) : (setItems items k v).lookup k' = items.lookup k' := by
  unfold setItems
  split
  case isTrue =>
    clear * - h
    induction items with
    | nil => rfl
    | cons i items ih =>
      rw [map_cons, lookup_cons, lookup_cons, ih]
      by_cases hi : i.1 = k
      · rw [if_pos hi, hi]
        simp only [beq_false_of_ne h]
      · rw [if_neg hi]
  case isFalse =>
    rw [lookup_append, lookup_cons, beq_false_of_ne h, lookup_nil, Option.or_none]

@[simp] theorem get?_set : (d.set k v).get? k' = if k' = k then some v else d.get? k' := by
  split
  case isTrue h => exact h ▸ lookup_setItems_self
  case isFalse h => exact lookup_setItems_of_ne h

@[simp] theorem get?_erase : (d.erase k).get? k' = if k' = k then none else d.get? k' := by
  refine Option.ext fun v ↦ ?_
  split
  case isTrue h => simp [get?_eq_some_iff, erase, h]
  case isFalse h => simp [get?_eq_some_iff, erase, h]

theorem mem_set : k' ∈ d.set k v ↔ k' = k ∨ k' ∈ d := by
  rw [mem_iff, mem_iff, get?_set]
  split
  case isTrue h => exact iff_of_true ⟨v, rfl⟩ (Or.inl h)
  case isFalse h => exact (or_iff_right h).symm

/-- The last assignment to a key counts. -/
theorem get?_setAll : (d.setAll items).get? k = (items.reverse.lookup k).or (d.get? k) := by
  induction items generalizing d with
  | nil => rfl
  | cons i items ih =>
    have hset : d.setAll (i :: items) = (d.set i.1 i.2).setAll items := rfl
    rw [hset, ih, reverse_cons, lookup_append, get?_set, Option.or_assoc]
    congr 1
    by_cases h : k = i.1
    · rw [if_pos h, h, lookup_cons_self, Option.some_or]
    · rw [if_neg h, lookup_cons, beq_false_of_ne h, lookup_nil, Option.none_or]

/-- The assignments to keys that are not there add the items of the list. -/
theorem items_setAll (h : (d.items.map Prod.fst ++ items.map Prod.fst).Nodup) :
    (d.setAll items).items = d.items ++ items := by
  induction items generalizing d with
  | nil => exact (append_nil _).symm
  | cons i items ih =>
    have hset : (d.set i.1 i.2).items = d.items ++ [i] := by
      refine if_neg fun hmem ↦ ?_
      exact (nodup_append.mp h).2.2 _ hmem _ mem_cons_self rfl
    have hall : d.setAll (i :: items) = (d.set i.1 i.2).setAll items := rfl
    rw [hall, ih, hset, append_assoc, singleton_append]
    rwa [hset, map_append, append_assoc]

section Sum

variable (f : K × V → Nat)

theorem sum_map_setItems_le {items : List (K × V)} (h : (items.map Prod.fst).Nodup) (k : K) (v : V) :
    ((setItems items k v).map f).sum ≤ (items.map f).sum + f (k, v) := by
  unfold setItems
  split
  case isFalse =>
    have hsum : ((items ++ [(k, v)]).map f).sum = (items.map f).sum + f (k, v) := by
      rw [map_append, sum_append, map_singleton, sum_singleton]
    exact Nat.le_of_eq hsum
  case isTrue hk =>
    clear hk
    induction items with
    | nil => exact Nat.zero_le _
    | cons i items ih =>
      obtain ⟨hi, hitems⟩ := nodup_cons.mp h
      simp only [map_cons, sum_cons]
      by_cases hkey : i.1 = k
      · have hsame : items.map (fun i ↦ if i.1 = k then (k, v) else i) = items := by
          refine (map_congr_left fun j hj ↦ if_neg ?_).trans (map_id' items)
          rintro rfl
          exact hi (hkey ▸ mem_map_of_mem hj)
        rw [if_pos hkey, hsame]
        omega
      · have hle := ih hitems
        rw [if_neg hkey]
        omega

/-- Assignments add no more than their items. -/
theorem sum_map_setAll_le (d : Dict K V) (items : List (K × V)) :
    ((d.setAll items).items.map f).sum ≤ (d.items.map f).sum + (items.map f).sum := by
  induction items generalizing d with
  | nil => exact Nat.le_refl _
  | cons i items ih =>
    have hset : ((setItems d.items i.1 i.2).map f).sum ≤ (d.items.map f).sum + f i :=
      sum_map_setItems_le f d.nodup i.1 i.2
    have hrest := ih (d.set i.1 i.2)
    have hall : d.setAll (i :: items) = (d.set i.1 i.2).setAll items := rfl
    have hitems : (d.set i.1 i.2).items = setItems d.items i.1 i.2 := rfl
    rw [hitems] at hrest
    rw [hall, map_cons, sum_cons]
    omega

end Sum

/-- What holds of the values that assignments leave holds of every value but those that a later
assignment overwrites. -/
theorem forall_setAll_iff {P : V → Prop} : (∀ k v, (empty.setAll items).get? k = some v → P v) ↔
    ∀ before k v after, items = before ++ (k, v) :: after → ¬ P v → k ∈ after.map Prod.fst := by
  constructor
  · rintro h before k v after rfl hnot
    by_contra hmem
    refine hnot (h k v ?_)
    rw [get?_setAll, get?_empty, Option.or_none, reverse_append, reverse_cons,
      append_assoc, lookup_append, Assoc.lookup_eq_none_iff.mpr (by simpa using hmem)]
    simp
  · intro h k v hget
    rw [get?_setAll, get?_empty, Option.or_none] at hget
    obtain ⟨after, before, hitems, hafter⟩ := lookup_eq_some_iff.mp hget
    by_contra hnot
    have hmem := h before.reverse k v after.reverse (by
      rw [← reverse_reverse items, hitems, reverse_append, reverse_cons,
        append_assoc, singleton_append]) hnot
    obtain ⟨p, hp, rfl⟩ := mem_map.mp hmem
    exact absurd rfl (bne_iff_ne.mp (hafter p (mem_reverse.mp hp)))

theorem get?_update : (d.update e).get? k = (e.get? k).or (d.get? k) := by
  have hnodup : (e.items.reverse.map Prod.fst).Nodup := by
    rw [map_reverse]
    exact nodup_reverse.mpr e.nodup
  rw [update, get?_setAll]
  congr 1
  refine Option.ext fun v ↦ ?_
  rw [Assoc.lookup_eq_some_iff_mem hnodup, get?_eq_some_iff, mem_reverse]

theorem get?_eraseAll : (d.eraseAll ks).get? k = if k ∈ ks then none else d.get? k := by
  induction ks generalizing d with
  | nil => rfl
  | cons k' ks ih =>
    have herase : d.eraseAll (k' :: ks) = (d.erase k').eraseAll ks := rfl
    rw [herase, ih, get?_erase]
    by_cases hk : k = k'
    · rw [if_pos hk, ite_self, if_pos (hk ▸ mem_cons_self)]
    · simp only [mem_cons, hk, false_or, if_false]

/-- The list of a key has its entries in their order; a key without entries is not there. -/
theorem get?_group {entries : List (K × V)} : (group entries).get? k =
    if (entries.filter fun e ↦ e.1 = k).isEmpty then none
    else some ((entries.filter fun e ↦ e.1 = k).map Prod.snd) := by
  have hfold : ∀ (entries : List (K × V)) (d : Dict K (List V)),
      (entries.foldl (fun d e ↦ d.set e.1 ((d.get? e.1).getD [] ++ [e.2])) d).get? k =
        if (entries.filter fun e ↦ e.1 = k).isEmpty then d.get? k
        else some ((d.get? k).getD [] ++ (entries.filter fun e ↦ e.1 = k).map Prod.snd) := by
    intro entries
    induction entries with
    | nil => exact fun d ↦ rfl
    | cons e entries ih =>
      intro d
      rw [foldl_cons, ih, get?_set, filter_cons]
      by_cases hkey : e.1 = k
      · rw [if_pos hkey.symm, if_pos (decide_eq_true hkey), hkey, Option.getD_some, isEmpty_cons,
          if_neg Bool.false_ne_true, map_cons]
        cases hrest : entries.filter fun e ↦ e.1 = k with
        | nil => rfl
        | cons e' rest => rw [isEmpty_cons, if_neg Bool.false_ne_true, append_assoc]; rfl
      · rw [if_neg (Ne.symm hkey), if_neg fun h ↦ hkey (of_decide_eq_true h)]
  exact hfold entries _

/-! ### Comprehensions -/

section

variable {W ε : Type} {f : K → V → Except ε W} {d' : Dict K W}

/-- `{k: g(v) for k, v in d.items()}`. -/
def map (g : V → W) (d : Dict K V) : Dict K W where
  items := d.items.map fun i ↦ (i.1, g i.2)
  nodup := by
    rw [List.map_map]
    exact d.nodup

@[simp] theorem get?_map {g : V → W} : (d.map g).get? k = (d.get? k).map g := by
  change (d.items.map fun i ↦ (i.1, g i.2)).lookup k = (d.items.lookup k).map g
  induction d.items with
  | nil => rfl
  | cons i items ih =>
    rw [map_cons, lookup_cons, lookup_cons, ih]
    cases k == i.1 <;> rfl

/-- What `f` makes of an item, under the key of the item. -/
def mapItem (f : K → V → Except ε W) (i : K × V) : Except ε (K × W) := (f i.1 i.2).map (Prod.mk i.1)

omit [DecidableEq K] in
theorem mapItem_eq_ok {i : K × V} {j : K × W} :
    mapItem f i = .ok j ↔ j.1 = i.1 ∧ f i.1 i.2 = .ok j.2 := by
  unfold mapItem
  cases f i.1 i.2 with
  | error e => exact iff_of_false nofun fun h ↦ nomatch h.2
  | ok w =>
    obtain ⟨key, w'⟩ := j
    constructor
    · rintro ⟨⟩
      exact ⟨rfl, rfl⟩
    · rintro ⟨rfl, ⟨⟩⟩
      rfl

omit [DecidableEq K] in
theorem map_fst_of_mapM {items : List (K × V)} {items' : List (K × W)}
    (h : items.mapM (mapItem f) = .ok items') : items'.map Prod.fst = items.map Prod.fst := by
  induction ExceptResult.mapM_eq_ok.mp h with
  | nil => rfl
  | cons hitem _ ih =>
    rw [map_cons, map_cons, (mapItem_eq_ok.mp hitem).1, ih (ExceptResult.mapM_eq_ok.mpr ‹_›)]

/-- `{k: f(k, v) for k, v in d.items()}`, failing where `f` does. -/
def mapM (f : K → V → Except ε W) (d : Dict K V) : Except ε (Dict K W) :=
  match h : d.items.mapM (mapItem f) with
  | .error e => .error e
  | .ok items => .ok ⟨items, map_fst_of_mapM h ▸ d.nodup⟩

omit [DecidableEq K] in
theorem mapM_eq_ok : d.mapM f = .ok d' ↔ d.items.mapM (mapItem f) = .ok d'.items := by
  unfold mapM
  split
  case h_1 e h => exact iff_of_false nofun (by rw [h]; exact nofun)
  case h_2 items h =>
    constructor
    · rintro ⟨⟩
      exact h
    · intro h'
      cases h.symm.trans h'
      rfl

/-- The value of a key is what `f` makes of it. -/
theorem get?_mapM (h : d.mapM f = .ok d') (k : K) :
    Option.Rel (fun v w ↦ f k v = .ok w) (d.get? k) (d'.get? k) := by
  have hitems := ExceptResult.mapM_eq_ok.mp (mapM_eq_ok.mp h)
  unfold get?
  generalize d.items = items, d'.items = items' at hitems
  induction hitems with
  | nil => exact .none
  | @cons i j _ _ hitem _ ih =>
    obtain ⟨hkey, hvalue⟩ := mapItem_eq_ok.mp hitem
    rw [lookup_cons, lookup_cons, hkey]
    by_cases hk : k = i.1
    · subst hk
      simpa using hvalue
    · simpa [beq_false_of_ne hk] using ih

theorem exists_mapM (h : ∀ k v, d.get? k = some v → ∃ w, f k v = .ok w) : ∃ d', d.mapM f = .ok d' := by
  have hitem : ∀ i ∈ d.items, ∃ j, mapItem f i = .ok j := fun i hi ↦ by
    obtain ⟨w, hw⟩ := h i.1 i.2 (get?_eq_some_iff.mpr hi)
    exact ⟨(i.1, w), mapItem_eq_ok.mpr ⟨rfl, hw⟩⟩
  obtain ⟨items, hitems⟩ := ExceptResult.exists_mapM hitem
  exact ⟨⟨items, map_fst_of_mapM hitems ▸ d.nodup⟩, mapM_eq_ok.mpr hitems⟩

end

end Dict
