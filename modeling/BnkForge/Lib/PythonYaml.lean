import BnkForge.Lib.Dict
import BnkForge.Lib.PythonValue

/-!
# YAML documents in Python

What `yaml.safe_load` makes of a text, as a tree. The keys of a mapping are scalars. A document may have
sections: lists of entries in which one key holds a mapping (`Python.Yaml.adjustSection`).
-/

namespace Python

open List

inductive Scalar
  | none
  | bool (b : Bool)
  | int (n : Int)
  | float (x : FloatValue)
  | str (s : String)
  | bytes (bs : List UInt8)
  | time (text : String)
  deriving DecidableEq

/-- What a YAML node is loaded as. Tuples are the elements of ordered mappings. -/
inductive Yaml
  | scalar (s : Scalar)
  | list (items : List Yaml)
  | tuple (items : List Yaml)
  | set (items : List Scalar)
  | dict (items : List (Scalar × Yaml))

/-- `bool(value)` of a scalar. A date and a time are true. -/
def Scalar.truthy : Scalar → Bool
  | none => false
  | bool b => b
  | int n => n != 0
  | float (.finite x) => x != 0
  | float _ => true
  | str s => !s.isEmpty
  | bytes bs => !bs.isEmpty
  | time _ => true

namespace Yaml

abbrev Items := List (Scalar × Yaml)

/-- `bool(value)`. -/
def truthy : Yaml → Bool
  | scalar s => s.truthy
  | list items => !items.isEmpty
  | tuple items => !items.isEmpty
  | set items => !items.isEmpty
  | dict items => !items.isEmpty

def dict? : Yaml → Option Items
  | dict items => some items
  | _ => none

/-- `items.get(key)`. -/
def get (items : Items) (key : String) : Yaml := (items.lookup (.str key)).getD (.scalar .none)

/-- `items[key] = value`. -/
def assign (items : Items) (key : String) (value : Yaml) : Items := Dict.setItems items (.str key) value

/-- `items.pop(key, None)`. -/
def pop (items : Items) (key : String) : Items := items.filter fun i ↦ i.1 ≠ .str key

/-- `for item in value`. -/
def iterate : Yaml → Except Raised (List Yaml)
  | list items => .ok items
  | tuple items => .ok items
  | set items => .ok (items.map scalar)
  | dict items => .ok (items.map fun i ↦ scalar i.1)
  | scalar (.str s) => .ok (s.toList.map fun c ↦ scalar (.str (String.singleton c)))
  | scalar (.bytes bs) => .ok (bs.map fun b ↦ scalar (.int b.toNat))
  | scalar _ => .error .typeError

/-- `hash(value)` is defined. No element of a tuple is a tuple. -/
def hashable : Yaml → Bool
  | scalar _ => true
  | tuple items => items.all fun item ↦ match item with
    | scalar _ => true
    | _ => false
  | _ => false

/-- `str(value)`; `repr` prints all but the simplest values. -/
def toText (repr : Yaml → String) : Yaml → String
  | scalar .none => "None"
  | scalar (.bool true) => "True"
  | scalar (.bool false) => "False"
  | scalar (.int n) => toString n
  | scalar (.str s) => s
  | value => repr value

/-- The value of a key in place of the old one, if there is one. -/
def adjust (key : String) (f : Yaml → Yaml) : Items → Items
  | [] => []
  | i :: items => if i.1 = .str key then (i.1, f i.2) :: items else i :: adjust key f items

/-- A function on mappings, on all values. -/
def onDict (f : Items → Items) : Yaml → Yaml
  | dict items => dict (f items)
  | v => v

def elements : Yaml → List Yaml
  | list items => items
  | tuple items => items
  | _ => []

def onElements (f : Yaml → Yaml) : Yaml → Yaml
  | list items => list (items.map f)
  | tuple items => tuple (items.map f)
  | v => v

def adjustEntry (itemKey : String) (f : Items → Items) : Yaml → Yaml :=
  onDict (adjust itemKey (onDict f))

/-- A document with the mappings of a section changed. -/
def adjustSection (listKey itemKey : String) (f : Items → Items) : Items → Items :=
  adjust listKey (onElements (adjustEntry itemKey f))

def entryItem (itemKey : String) (entry : Yaml) : Option Items :=
  entry.dict?.bind fun items ↦ (get items itemKey).dict?

def sectionItems (listKey itemKey : String) (doc : Items) : List Items :=
  (get doc listKey).elements.filterMap (entryItem itemKey)

variable {items : Items} {key key' : String} {value value' : Yaml} {f g : Yaml → Yaml}

/-! ### Keys -/

@[simp] theorem get_assign : get (assign items key value) key' =
    if key' = key then value else get items key' := by
  unfold get assign
  split
  · next h =>
    rw [h, Dict.lookup_setItems_self]
    rfl
  · next h => rw [Dict.lookup_setItems_of_ne (fun heq ↦ h (Scalar.str.inj heq))]

theorem get_filter (p : Scalar → Bool) (items : Items) (key : String) :
    get (items.filter fun i ↦ p i.1) key = if p (.str key) then get items key else scalar .none := by
  unfold get
  induction items with
  | nil => exact (ite_self _).symm
  | cons i items ih =>
    by_cases hi : i.1 = .str key
    · rw [filter_cons, hi]
      split
      · rw [lookup_cons, lookup_cons, hi, beq_self_eq_true]
      · next hp => rw [ih, if_neg hp]
    · rw [filter_cons, lookup_cons, beq_false_of_ne (Ne.symm hi)]
      split
      · rw [lookup_cons, beq_false_of_ne (Ne.symm hi)]
        exact ih
      · exact ih

@[simp] theorem get_pop : get (pop items key) key' =
    if key' = key then scalar .none else get items key' := by
  have hpop : pop items key = items.filter fun i ↦ decide (i.1 ≠ .str key) := rfl
  rw [hpop, get_filter (fun k ↦ decide (k ≠ .str key))]
  by_cases h : key' = key
  · simp [h]
  · simp [h]

theorem assign_assign_self : assign (assign items key value) key value' = assign items key value' := by
  unfold assign
  have hmem : Scalar.str key ∈ (Dict.setItems items (.str key) value).map Prod.fst := by
    rw [Dict.keys_setItems]
    split
    · assumption
    · exact mem_append_right _ (mem_singleton_self _)
  rw [Dict.setItems, if_pos hmem]
  unfold Dict.setItems
  split
  · rw [map_map]
    refine map_congr_left fun i _ ↦ ?_
    by_cases hi : i.1 = .str key <;> simp [hi]
  · next hkey =>
    rw [map_append, map_singleton, if_pos rfl]
    congr 1
    refine (map_congr_left fun i hi ↦ if_neg ?_).trans (map_id' items)
    rintro heq
    exact hkey (heq ▸ mem_map_of_mem hi)

/-- Assignments to different keys can be exchanged where the first key is there. -/
theorem assign_assign_of_mem (h : Scalar.str key ∈ items.map Prod.fst) (hne : key ≠ key') :
    assign (assign items key' value') key value = assign (assign items key value) key' value' := by
  have hkeys : ∀ {xs : Items} {k : String} {v : Yaml}, Scalar.str k ∈ xs.map Prod.fst →
      assign xs k v = xs.map fun i ↦ if i.1 = .str k then (.str k, v) else i := fun hk ↦ if_pos hk
  have hkeep : ∀ {xs : Items} {k k' : String} {v : Yaml}, k ≠ k' →
      (Scalar.str k ∈ (assign xs k' v).map Prod.fst ↔ Scalar.str k ∈ xs.map Prod.fst) := by
    intro xs k k' v hkk
    unfold assign
    rw [Dict.keys_setItems]
    split
    · rfl
    · simp [hkk]
  rw [hkeys ((hkeep hne).mpr h), hkeys h]
  by_cases hmem : Scalar.str key' ∈ items.map Prod.fst
  · have hmem' := (hkeep (v := value) hne.symm).mpr hmem
    rw [hkeys h] at hmem'
    rw [hkeys hmem, hkeys hmem', map_map, map_map]
    refine map_congr_left fun i _ ↦ ?_
    have hkey : Scalar.str key' ≠ .str key := fun heq ↦ hne (Scalar.str.inj heq).symm
    by_cases hi : i.1 = .str key
    · simp [hi, hkey.symm]
    · by_cases hi' : i.1 = .str key'
      · simp [hi', hkey]
      · simp [hi, hi']
  · have hmem' := mt (hkeep (v := value) hne.symm).mp hmem
    rw [hkeys h] at hmem'
    unfold assign Dict.setItems
    rw [if_neg hmem, if_neg hmem', map_append, map_singleton, if_neg]
    exact fun heq ↦ hne (Scalar.str.inj heq).symm

theorem assign_pop (h : key ≠ key') : assign (pop items key') key value = pop (assign items key value) key' := by
  have hkey : Scalar.str key ≠ .str key' := fun heq ↦ h (Scalar.str.inj heq)
  have hmem : Scalar.str key ∈ (pop items key').map Prod.fst ↔ Scalar.str key ∈ items.map Prod.fst := by
    simp only [pop, mem_map, mem_filter, decide_eq_true_eq]
    constructor
    · rintro ⟨i, ⟨hi, -⟩, heq⟩
      exact ⟨i, hi, heq⟩
    · rintro ⟨i, hi, heq⟩
      exact ⟨i, ⟨hi, heq ▸ hkey⟩, heq⟩
  unfold assign Dict.setItems
  by_cases hk : Scalar.str key ∈ items.map Prod.fst
  · rw [if_pos (hmem.mpr hk), if_pos hk, pop, pop, filter_map]
    congr 1
    refine filter_congr fun i _ ↦ ?_
    rw [Function.comp_apply]
    split
    · next hi => rw [hi]
    · rfl
  · rw [if_neg (mt hmem.mp hk), if_neg hk, pop, pop, filter_append]
    congr 1
    simp [hkey]

theorem pop_pop_self : pop (pop items key) key = pop items key := by
  simp only [pop, filter_filter, Bool.and_self]

/-! ### Values in place -/

theorem get_adjust_of_ne (h : key' ≠ key) : get (adjust key f items) key' = get items key' := by
  have hne : Scalar.str key' ≠ .str key := fun heq ↦ h (Scalar.str.inj heq)
  unfold get
  induction items with
  | nil => rfl
  | cons i items ih =>
    rw [adjust]
    split
    · next hi => rw [lookup_cons, lookup_cons, hi, beq_false_of_ne hne]
    · rw [lookup_cons, lookup_cons]
      cases Scalar.str key' == i.1
      · exact ih
      · rfl

theorem get_adjust (hf : f (.scalar .none) = .scalar .none) :
    get (adjust key f items) key = f (get items key) := by
  unfold get
  induction items with
  | nil => exact hf.symm
  | cons i items ih =>
    rw [adjust]
    split
    · next hi => rw [hi, lookup_cons_self, ← hi, lookup_cons_self, Option.getD_some, Option.getD_some]
    · next hi =>
      rw [lookup_cons, lookup_cons, beq_false_of_ne (Ne.symm hi)]
      exact ih

theorem adjust_adjust : adjust key g (adjust key f items) = adjust key (g ∘ f) items := by
  induction items with
  | nil => rfl
  | cons i items ih =>
    rw [adjust, adjust]
    split
    · next hi => rw [adjust, if_pos hi, Function.comp_apply]
    · next hi => rw [adjust, if_neg hi, ih]

theorem adjust_comm (h : key' ≠ key) :
    adjust key' g (adjust key f items) = adjust key f (adjust key' g items) := by
  induction items with
  | nil => rfl
  | cons i items ih =>
    by_cases hi : i.1 = .str key
    · have hi' : i.1 ≠ .str key' := fun heq ↦ h (Scalar.str.inj (heq.symm.trans hi))
      simp only [adjust, if_pos hi, if_neg hi']
    · by_cases hi' : i.1 = .str key'
      · simp only [adjust, if_neg hi, if_pos hi']
      · simp only [adjust, if_neg hi, if_neg hi', ih]

/-- Only the value that is there counts. -/
theorem adjust_congr (h : f (get items key) = g (get items key)) :
    adjust key f items = adjust key g items := by
  unfold get at h
  induction items with
  | nil => rfl
  | cons i items ih =>
    rw [adjust, adjust]
    split
    · next hi =>
      rw [← hi, lookup_cons_self, Option.getD_some] at h
      rw [h]
    · next hi =>
      rw [lookup_cons, beq_false_of_ne (Ne.symm hi)] at h
      rw [ih h]

theorem adjust_id (key : String) (items : Items) : adjust key id items = items := by
  induction items with
  | nil => rfl
  | cons i items ih =>
    rw [adjust, ih]
    exact ite_self _

/-! ### Sections -/

section Section

variable {listKey itemKey listKey' itemKey' : String} {doc : Items} {F G : Items → Items}

theorem onDict_comp (v : Yaml) : onDict G (onDict F v) = onDict (G ∘ F) v := by
  cases v <;> rfl

theorem onElements_comp (v : Yaml) : onElements g (onElements f v) = onElements (g ∘ f) v := by
  cases v with
  | list items | tuple items => rw [onElements, onElements, onElements, map_map]
  | _ => rfl

theorem elements_onElements (v : Yaml) : (onElements f v).elements = v.elements.map f := by
  cases v <;> rfl

theorem adjustEntry_adjustEntry (entry : Yaml) : adjustEntry itemKey G (adjustEntry itemKey F entry) =
    adjustEntry itemKey (G ∘ F) entry := by
  cases entry with
  | dict items =>
    have hcomp : onDict G ∘ onDict F = onDict (G ∘ F) := funext onDict_comp
    change dict (adjust itemKey (onDict G) (adjust itemKey (onDict F) items)) = _
    rw [adjust_adjust, hcomp]
    rfl
  | _ => rfl

theorem adjustSection_adjustSection : adjustSection listKey itemKey G (adjustSection listKey itemKey F doc) =
    adjustSection listKey itemKey (G ∘ F) doc := by
  have hentry : adjustEntry itemKey G ∘ adjustEntry itemKey F = adjustEntry itemKey (G ∘ F) :=
    funext adjustEntry_adjustEntry
  have hlist : onElements (adjustEntry itemKey G) ∘ onElements (adjustEntry itemKey F) =
      onElements (adjustEntry itemKey (G ∘ F)) := by
    rw [← hentry]
    exact funext onElements_comp
  rw [adjustSection, adjustSection, adjust_adjust, hlist]
  rfl

theorem adjustSection_comm (h : listKey' ≠ listKey) :
    adjustSection listKey' itemKey' G (adjustSection listKey itemKey F doc) =
      adjustSection listKey itemKey F (adjustSection listKey' itemKey' G doc) :=
  adjust_comm h

theorem entryItem_adjustEntry (entry : Yaml) :
    entryItem itemKey (adjustEntry itemKey F entry) = (entryItem itemKey entry).map F := by
  cases entry with
  | dict items =>
    change (get (adjust itemKey (onDict F) items) itemKey).dict? = (get items itemKey).dict?.map F
    rw [get_adjust rfl]
    cases get items itemKey <;> rfl
  | _ => rfl

theorem sectionItems_adjustSection : sectionItems listKey itemKey (adjustSection listKey itemKey F doc) =
    (sectionItems listKey itemKey doc).map F := by
  rw [sectionItems, adjustSection, get_adjust rfl, elements_onElements, sectionItems, filterMap_map,
    map_filterMap]
  exact congrArg (fun f ↦ List.filterMap f _) (funext entryItem_adjustEntry)

theorem sectionItems_adjustSection_of_ne (h : listKey' ≠ listKey) :
    sectionItems listKey' itemKey' (adjustSection listKey itemKey F doc) =
      sectionItems listKey' itemKey' doc := by
  rw [sectionItems, adjustSection, get_adjust_of_ne h, sectionItems]

theorem adjustEntry_congr {entry : Yaml}
    (h : ∀ item, entryItem itemKey entry = some item → F item = G item) :
    adjustEntry itemKey F entry = adjustEntry itemKey G entry := by
  cases entry with
  | dict items =>
    refine congrArg dict (adjust_congr ?_)
    cases hget : get items itemKey with
    | dict item => exact congrArg dict (h item (by rw [entryItem, dict?, Option.bind_some, hget, dict?]))
    | _ => rfl
  | _ => rfl

theorem onElements_congr {v : Yaml} (h : ∀ item ∈ v.elements, f item = g item) :
    onElements f v = onElements g v := by
  cases v with
  | list items => exact congrArg list (map_congr_left h)
  | tuple items => exact congrArg tuple (map_congr_left h)
  | _ => rfl

@[simp] theorem truthy_onElements (v : Yaml) : (onElements f v).truthy = v.truthy := by
  cases v with
  | list items | tuple items => exact congrArg Bool.not isEmpty_map
  | _ => rfl

/-- What a section is iterated to. What is no list and no tuple has no mappings in it. -/
theorem iterate_onElements_adjustEntry (v : Yaml) : (onElements (adjustEntry itemKey F) v).iterate =
    v.iterate.map (List.map (adjustEntry itemKey F)) := by
  have hscalar : adjustEntry itemKey F ∘ scalar = scalar := rfl
  cases v with
  | list items | tuple items => rfl
  | set items =>
    rw [onElements, iterate, Except.map, map_map, hscalar]
    · rintro _ ⟨⟩
    · rintro _ ⟨⟩
  | dict items =>
    rw [onElements, iterate, Except.map, map_map]
    · rfl
    · rintro _ ⟨⟩
    · rintro _ ⟨⟩
  | scalar x =>
    cases x with
    | str text | bytes bs =>
      rw [onElements, iterate, Except.map, map_map]
      · rfl
      · rintro _ ⟨⟩
      · rintro _ ⟨⟩
    | _ => rfl

/-- Two functions change a document alike if and only if they change its mappings alike. -/
theorem adjustSection_eq_iff : adjustSection listKey itemKey F doc = adjustSection listKey itemKey G doc ↔
    ∀ item ∈ sectionItems listKey itemKey doc, F item = G item := by
  constructor
  · intro h
    have hitems := congrArg (sectionItems listKey itemKey) h
    rw [sectionItems_adjustSection, sectionItems_adjustSection] at hitems
    exact map_inj_left.mp hitems
  · intro h
    rw [sectionItems] at h
    refine adjust_congr (onElements_congr fun entry hentry ↦ adjustEntry_congr fun item hitem ↦ ?_)
    exact h item (mem_filterMap.mpr ⟨entry, hentry, hitem⟩)

/-- An empty section has no mappings. -/
theorem adjustSection_of_falsy (h : ¬ (get doc listKey).truthy = true) :
    adjustSection listKey itemKey F doc = doc := by
  rw [adjustSection, adjust_congr (g := id), adjust_id]
  cases hget : get doc listKey with
  | list items | tuple items =>
    rw [hget] at h
    cases items with
    | nil => rfl
    | cons item items => exact absurd rfl h
  | _ => rfl

theorem sectionItems_of_falsy (h : ¬ (get doc listKey).truthy = true) :
    sectionItems listKey itemKey doc = [] := by
  rw [sectionItems]
  cases hget : get doc listKey with
  | list items | tuple items =>
    rw [hget] at h
    cases items with
    | nil => rfl
    | cons item items => exact absurd rfl h
  | _ => rfl

/-- The mappings of a section are those of what it is iterated to. -/
theorem sectionItems_of_iterate {entries : List Yaml} (h : (get doc listKey).iterate = .ok entries) :
    sectionItems listKey itemKey doc = entries.filterMap (entryItem itemKey) := by
  have hscalar : ∀ {α : Type} (f : α → Scalar) (xs : List α),
      (xs.map fun x ↦ scalar (f x)).filterMap (entryItem itemKey) = [] := by
    intro α f xs
    rw [filterMap_map]
    exact filterMap_eq_nil_iff.mpr fun _ _ ↦ rfl
  rw [sectionItems]
  cases hget : get doc listKey with
  | list items | tuple items =>
    rw [hget] at h
    cases h
    rfl
  | set items =>
    rw [hget] at h
    cases h
    exact (hscalar id items).symm
  | dict items =>
    rw [hget] at h
    cases h
    exact (hscalar Prod.fst items).symm
  | scalar x =>
    rw [hget] at h
    cases x with
    | str text =>
      cases h
      exact (hscalar _ text.toList).symm
    | bytes bs =>
      cases h
      exact (hscalar _ bs).symm
    | _ => cases h

end Section

end Yaml

end Python
