import BnkForge.Graph.Resolution

/-!
# The order of the resolved modules

`resolve` returns the transitive closure of the selection and an order that puts dependencies first: when
the numbers that the modules declare ascend along the dependencies, and, with optional dependencies asked
for, when these lead to nothing else. The walk finds the dependencies; the order is by the numbers alone.
-/

namespace BnkForge.Resolver

open List

section

variable (c : Catalog) (includeOptional : Bool) (selected : List String)

/-- `a` requires `b`. -/
def Requires (a b : String) : Prop := b ∈ requiredOf c a

def InClosure (m : String) : Prop := ∃ r ∈ selected, Relation.ReflTransGen (Requires c) r m

/-- The required modules are the closure, and the order has each once, behind what it requires. -/
structure Resolved (res : Resolution) : Prop where
  closure : ∀ x, x ∈ res.required ↔ InClosure c selected x
  perm : res.deploymentOrder.Perm res.required
  nodup : res.deploymentOrder.Nodup
  dependencies_first : ∀ m ∈ res.deploymentOrder, ∀ d ∈ requiredOf c m,
    res.deploymentOrder.idxOf d < res.deploymentOrder.idxOf m

/-- What the walk comes across is in the catalog, and it does not come back to where it was. -/
structure Resolvable : Prop where
  available : ∀ m ∈ selected, m ∈ modules c
  sane : ∀ m, Reached c includeOptional selected m → Sane c m
  acyclic : ∀ m, Reached c includeOptional selected m →
    ¬ Relation.TransGen (Follows c includeOptional) m m

/-- The walk succeeds, optional dependencies lead it to no other requirements, and the declared numbers
ascend along the required dependencies. -/
structure Ascending : Prop extends Resolvable c includeOptional selected where
  closed : ∀ m, Due c includeOptional selected m → InClosure c selected m
  ascending : ∀ m, InClosure c selected m → ∀ d ∈ requiredOf c m,
    getDeploymentOrder c d < getDeploymentOrder c m

end

section

variable {c : Catalog} {includeOptional : Bool} {selected : List String} {limit : Nat} {s : Sets}
  {set : Iteration} {m d x : String} {xs : List String}

/-! ### What the walk collects -/

theorem walked_empty : Walked c includeOptional selected [] ⟨[], [], []⟩ :=
  ⟨nofun, nofun, fun _ ↦ 0, nofun⟩

theorem reached_of_selected (h : m ∈ selected) : Reached c includeOptional selected m := ⟨m, h, .refl⟩

theorem resolveAll_spec {ms : List String} (hms : ∀ m ∈ ms, m ∈ selected ∧ m ∈ modules c)
    (h : Walked c includeOptional selected [] s) :
    Outcome c includeOptional selected limit (fun s' ↦ Walked c includeOptional selected [] s' ∧
      Grows s s' ∧ ∀ m ∈ ms, m ∈ s'.visited ∧ m ∈ s'.required)
      (resolveAll c limit includeOptional s ms) := by
  induction ms generalizing s with
  | nil => exact ⟨h, Grows.refl s, nofun⟩
  | cons m ms ih =>
    obtain ⟨hselected, hin⟩ := hms m mem_cons_self
    have hcall := @resolveRecursive_spec c includeOptional false selected [] limit nodup_nil nofun s m
      h hin (reached_of_selected hselected) (isChain_singleton m) fun _ ↦ Or.inl hselected
    rw [length_nil, Nat.zero_add] at hcall
    unfold resolveAll
    cases hs : resolveRecursive c includeOptional limit [] false s m with
    | error e =>
      rw [hs] at hcall
      exact hcall
    | ok s₁ =>
      rw [hs] at hcall
      obtain ⟨hwalked, hgrows, hvisited, -, hrequired⟩ := hcall
      refine Outcome.mono ?_ (ih (fun m' hm' ↦ hms m' (mem_cons_of_mem m hm')) hwalked)
      rintro s₂ ⟨hwalked', hgrows', hall⟩
      refine ⟨hwalked', hgrows.trans hgrows', forall_mem_cons.mpr ⟨?_, hall⟩⟩
      exact ⟨hgrows'.visited m hvisited, hgrows'.required m (hrequired rfl)⟩

theorem Walked.visited_of_reached (h : Walked c includeOptional selected [] s)
    (hselected : ∀ m ∈ selected, m ∈ s.visited) (hm : Reached c includeOptional selected m) :
    m ∈ s.visited := by
  obtain ⟨r, hr, hto⟩ := hm
  obtain ⟨rank, hrank⟩ := h.done
  induction hto with
  | refl => exact hselected r hr
  | tail _ hfollows ih => exact ((hrank _ ih not_mem_nil).2 _ hfollows).1

theorem Walked.finished (h : Walked c includeOptional selected [] s)
    (hselected : ∀ m ∈ selected, m ∈ s.visited ∧ m ∈ s.required) (hin : ∀ m ∈ selected, m ∈ modules c) :
    Resolvable c includeOptional selected ∧ ∀ x, x ∈ s.required ↔ Due c includeOptional selected x := by
  have hvisited : ∀ {m}, Reached c includeOptional selected m → m ∈ s.visited := fun hm ↦
    h.visited_of_reached (fun r hr ↦ (hselected r hr).1) hm
  obtain ⟨rank, hrank⟩ := h.done
  refine ⟨⟨hin, fun m hm ↦ (hrank m (hvisited hm) not_mem_nil).1, fun m hm ↦ ?_⟩, fun x ↦
    ⟨h.due x, ?_⟩⟩
  · exact Rank.not_transGen_self rank (fun _ _ ↦ Reached.tail) (fun a b ha hab ↦
      ((hrank a (hvisited ha) not_mem_nil).2 b hab).2.2.1) hm
  · rintro (hx | ⟨a, ha, hx⟩)
    · exact (hselected x hx).2
    · exact ((hrank a (hvisited ha) not_mem_nil).2 x (follows_of_required hx)).2.2.2 hx

theorem resolve_spec (hlimit : c.length < limit) (set : Iteration) :
    (∃ e, resolve c limit set selected includeOptional = .error e ∧
      ¬ Resolvable c includeOptional selected) ∨
    ∃ res xs, resolve c limit set selected includeOptional = .ok res ∧
      Resolvable c includeOptional selected ∧ (∀ x, x ∈ xs ↔ Due c includeOptional selected x) ∧
      res.required = sortedSet c set xs ∧ res.deploymentOrder = sortedSet c set xs := by
  unfold resolve
  cases hmissing : selected.find? fun m ↦ m ∉ modules c with
  | some m =>
    have hnot : m ∉ modules c := by simpa using find?_some hmissing
    exact Or.inl ⟨_, rfl, fun h ↦ hnot (h.available m (mem_of_find?_eq_some hmissing))⟩
  | none =>
    have hin : ∀ m ∈ selected, m ∈ modules c := fun m hm ↦
      not_not.mp fun hnot ↦ find?_eq_none.mp hmissing m hm (decide_eq_true hnot)
    have hall := @resolveAll_spec c includeOptional selected limit ⟨[], [], []⟩ selected
      (fun m hm ↦ ⟨hm, hin m hm⟩) walked_empty
    dsimp only
    cases hs : resolveAll c limit includeOptional ⟨[], [], []⟩ selected with
    | error e =>
      rw [hs] at hall
      refine Or.inl ⟨_, rfl, fun h ↦ ?_⟩
      cases e with
      | dependencyResolution message => exact hall
      | circularDependency message =>
        obtain ⟨x, hx, hcycle⟩ := hall
        exact h.acyclic x hx hcycle
      | missingDependency message =>
        obtain ⟨x, hx, hnot⟩ := hall
        exact hnot (h.sane x hx)
      | recursion => exact absurd hlimit (Nat.not_lt.mpr hall)
    | ok s =>
      rw [hs] at hall
      obtain ⟨hwalked, -, hselected⟩ := hall
      obtain ⟨hcan, hdue⟩ := hwalked.finished hselected hin
      exact Or.inr ⟨_, s.required, rfl, hcan, hdue, rfl, rfl⟩

/-! ### The order -/

theorem sortedSet_perm (set : Iteration) (xs : List String) : (sortedSet c set xs).Perm xs.dedup :=
  (perm_insertionSort _ _).trans (set.perm xs)

theorem mem_sortedSet : x ∈ sortedSet c set xs ↔ x ∈ xs := by
  rw [(sortedSet_perm set xs).mem_iff, mem_dedup]

theorem nodup_sortedSet : (sortedSet c set xs).Nodup :=
  (sortedSet_perm set xs).nodup_iff.mpr (nodup_dedup xs)

theorem pairwise_sortedSet :
    (sortedSet c set xs).Pairwise fun a b ↦ getDeploymentOrder c a ≤ getDeploymentOrder c b := by
  have : IsTrans String fun a b ↦ getDeploymentOrder c a ≤ getDeploymentOrder c b :=
    ⟨fun _ _ _ ↦ le_trans⟩
  have : Std.Total fun a b ↦ getDeploymentOrder c a ≤ getDeploymentOrder c b := ⟨fun _ _ ↦ le_total _ _⟩
  exact pairwise_insertionSort _ _

theorem idxOf_sortedSet_lt (hm : m ∈ xs) (hd : d ∈ xs)
    (hlt : getDeploymentOrder c d < getDeploymentOrder c m) :
    (sortedSet c set xs).idxOf d < (sortedSet c set xs).idxOf m := by
  have hm' := idxOf_lt_length_of_mem ((@mem_sortedSet c set m xs).mpr hm)
  have hd' := idxOf_lt_length_of_mem ((@mem_sortedSet c set d xs).mpr hd)
  rcases lt_trichotomy ((sortedSet c set xs).idxOf d) ((sortedSet c set xs).idxOf m) with h | h | h
  · exact h
  · have heq := getElem_idxOf hd'
    simp only [h, getElem_idxOf] at heq
    exact absurd hlt (heq ▸ lt_irrefl _)
  · have hle := pairwise_iff_getElem.mp (@pairwise_sortedSet c set xs) _ _ hm' hd' h
    rw [getElem_idxOf, getElem_idxOf] at hle
    exact absurd hlt (not_lt.mpr hle)

/-- A set that is gone through from a given element on. -/
def startingWith (m : String) : Iteration where
  order xs := if m ∈ xs then m :: xs.dedup.erase m else xs.dedup
  perm xs := by
    split
    case isTrue h => exact (List.perm_cons_erase (List.mem_dedup.mpr h)).symm
    case isFalse => exact .refl _

theorem idxOf_lt_of_pair_sublist (hnodup : xs.Nodup) (h : [m, d].Sublist xs) : xs.idxOf m < xs.idxOf d := by
  induction xs with
  | nil => cases h
  | cons x xs ih =>
    obtain ⟨hx, hnodup⟩ := nodup_cons.mp hnodup
    have hne : ∀ y ∈ xs, x ≠ y := fun y hy heq ↦ hx (heq ▸ hy)
    cases h with
    | cons _ h =>
      have hm := h.subset mem_cons_self
      have hd := h.subset (mem_cons_of_mem m mem_cons_self)
      rw [idxOf_cons_ne _ (hne m hm), idxOf_cons_ne _ (hne d hd)]
      exact Nat.succ_lt_succ (ih hnodup h)
    | cons_cons _ h =>
      rw [idxOf_cons_self, idxOf_cons_ne _ (hne d (singleton_sublist.mp h))]
      exact Nat.succ_pos _

theorem idxOf_startingWith_lt (hm : m ∈ xs) (hd : d ∈ xs) (hne : d ≠ m)
    (hle : getDeploymentOrder c m ≤ getDeploymentOrder c d) :
    (sortedSet c (startingWith m) xs).idxOf m < (sortedSet c (startingWith m) xs).idxOf d := by
  have : IsTrans String fun a b ↦ getDeploymentOrder c a ≤ getDeploymentOrder c b :=
    ⟨fun _ _ _ ↦ le_trans⟩
  have : Std.Total fun a b ↦ getDeploymentOrder c a ≤ getDeploymentOrder c b := ⟨fun _ _ ↦ le_total _ _⟩
  have hstart : (startingWith m).order xs = m :: xs.dedup.erase m := if_pos hm
  refine idxOf_lt_of_pair_sublist nodup_sortedSet (pair_sublist_insertionSort hle ?_)
  rw [hstart]
  exact List.Sublist.cons_cons m (singleton_sublist.mpr
    ((mem_erase_of_ne hne).mpr (mem_dedup.mpr hd)))

/-! ### The closure -/

theorem InClosure.tail (h : InClosure c selected m) (hd : d ∈ requiredOf c m) :
    InClosure c selected d := by
  obtain ⟨r, hr, hto⟩ := h
  exact ⟨r, hr, hto.tail hd⟩

theorem InClosure.due (h : InClosure c selected m) : Due c includeOptional selected m := by
  obtain ⟨r, hr, hto⟩ := h
  rcases hto.cases_tail with rfl | ⟨a, hto, hrequires⟩
  · exact Or.inl hr
  · exact Or.inr ⟨a, ⟨r, hr, Relation.ReflTransGen.mono (fun _ _ ↦ follows_of_required) _ _ hto⟩, hrequires⟩

end

/-- In whatever order Python goes through the set of the required modules, the resolver returns the closure
of the selection and an order of it that has dependencies first: exactly when it can resolve the
selection, optional dependencies add nothing, and the declared numbers ascend. -/
theorem resolve_orders_iff (c : Catalog) (includeOptional : Bool) (selected : List String) (limit : Nat)
    (hlimit : c.length < limit) :
    (∀ set, ∃ res, resolve c limit set selected includeOptional = .ok res ∧ Resolved c selected res) ↔
      Ascending c includeOptional selected := by
  constructor
  · intro h
    have hresolved : ∀ set, ∃ xs, Resolvable c includeOptional selected ∧
        (∀ x, x ∈ xs ↔ Due c includeOptional selected x) ∧
        Resolved c selected ⟨sortedSet c set xs, [], sortedSet c set xs⟩ := by
      intro set
      obtain ⟨res, hres, hresolved⟩ := h set
      rcases resolve_spec hlimit set with ⟨e, herror, -⟩ | ⟨res', xs, hok, hcan, hdue, hrequired, horder⟩
      · cases herror.symm.trans hres
      · cases hok.symm.trans hres
        obtain ⟨hclosure, hperm, hnodup, hfirst⟩ := hresolved
        rw [hrequired] at hclosure hperm
        rw [horder] at hperm hnodup hfirst
        exact ⟨xs, hcan, hdue, hclosure, hperm, hnodup, hfirst⟩
    obtain ⟨xs, hcan, hdue, hclosure, -⟩ := hresolved ⟨List.dedup, fun _ ↦ .refl _⟩
    refine ⟨hcan, fun m hm ↦ (hclosure m).mp (mem_sortedSet.mpr ((hdue m).mpr hm)), fun m hm d hd ↦ ?_⟩
    -- the numbers do not ascend: the module that requires the other is met first
    by_contra hnot
    obtain ⟨xs, -, hdue, hresolved⟩ := hresolved (startingWith m)
    have hmem : ∀ y, InClosure c selected y → y ∈ xs := fun y hy ↦ (hdue y).mpr hy.due
    have hbefore := hresolved.dependencies_first m (mem_sortedSet.mpr (hmem m hm)) d hd
    have hafter := idxOf_startingWith_lt (hmem m hm) (hmem d (hm.tail hd))
      (fun heq ↦ lt_irrefl _ (heq ▸ hbefore)) (not_lt.mp hnot)
    exact lt_asymm hbefore hafter
  · intro h set
    rcases resolve_spec hlimit set with ⟨e, -, hnot⟩ | ⟨res, xs, hok, -, hdue, hrequired, horder⟩
    · exact absurd h.toResolvable hnot
    · have hmem : ∀ x, x ∈ xs ↔ InClosure c selected x := fun x ↦
        ⟨fun hx ↦ h.closed x ((hdue x).mp hx), fun hx ↦ (hdue x).mpr hx.due⟩
      refine ⟨res, hok, ?_, ?_, ?_, ?_⟩
      · intro x
        rw [hrequired, mem_sortedSet, hmem]
      · rw [hrequired, horder]
      · rw [horder]
        exact nodup_sortedSet
      · rw [horder]
        intro m hm d hd
        have hm := mem_sortedSet.mp hm
        have hin := (hmem m).mp hm
        exact idxOf_sortedSet_lt hm ((hmem d).mpr (hin.tail hd)) (h.ascending m hin d hd)

/-- A module with a number below that of what it requires. -/
def descending : Catalog := [("a", some ⟨some 1, [some "b"], []⟩), ("b", some ⟨some 2, [], []⟩)]

theorem requires_descending {x y : String} (h : Requires descending x y) : x = "a" ∧ y = "b" := by
  by_cases ha : x = "a"
  · subst ha
    exact ⟨rfl, mem_singleton.mp h⟩
  by_cases hb : x = "b"
  · subst hb
    cases h
  have hnone : metadataOf descending x = none := by
    simp [metadataOf, descending, lookup_cons, beq_false_of_ne ha, beq_false_of_ne hb]
  rw [Requires, requiredOf, hnone] at h
  cases h

/-- The number of the module is not above that of its dependency. -/
theorem resolve_orders_iff_descending : ¬ Ascending descending false ["a"] ∧
    ¬ ∀ set, ∃ res, resolve descending 1000 set ["a"] false = .ok res ∧ Resolved descending ["a"] res := by
  have hnot : ¬ Ascending descending false ["a"] := fun h ↦
    absurd (h.ascending "a" ⟨"a", List.mem_singleton_self "a", .refl⟩ "b" (List.mem_singleton_self "b"))
      (by decide)
  exact ⟨hnot, fun h ↦ hnot ((resolve_orders_iff descending false ["a"] 1000 (by decide)).mp h)⟩

/-- The module is deployed before what it requires. -/
theorem dependency_deployed_last :
    ¬ ∀ (c : Catalog) (selected : List String) (limit : Nat) (set : Iteration), (modules c).Nodup →
      (∀ m, ¬ Relation.TransGen (Requires c) m m) → (∀ m ∈ modules c, Sane c m) →
      (∀ m ∈ selected, m ∈ modules c) → c.length < limit →
      ∃ res, resolve c limit set selected false = .ok res ∧ Resolved c selected res := by
  intro h
  obtain ⟨res, hres, hresolved⟩ := h descending ["a"] 1000 ⟨List.dedup, fun _ ↦ .refl _⟩ (by decide)
    (fun m hcycle ↦ by
      obtain ⟨y, hmy, hym⟩ := Relation.TransGen.head'_iff.mp hcycle
      obtain ⟨rfl, rfl⟩ := requires_descending hmy
      rcases hym.cases_head with hba | ⟨z, hbz, -⟩
      · exact absurd hba (by decide)
      · exact absurd (requires_descending hbz).1 (by decide))
    (by
      intro m hm
      refine ⟨?_, fun b hb ↦ ?_⟩
      · revert m
        decide
      · obtain ⟨-, rfl⟩ := requires_descending hb
        decide)
    (by decide) (by decide)
  have horder : resolve descending 1000 ⟨List.dedup, fun _ ↦ .refl _⟩ ["a"] false =
      .ok ⟨["a", "b"], [], ["a", "b"]⟩ := rfl
  cases horder.symm.trans hres
  have hfirst := hresolved.dependencies_first "a" (by decide) "b" (List.mem_singleton_self "b")
  revert hfirst
  decide

end BnkForge.Resolver
