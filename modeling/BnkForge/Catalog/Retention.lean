import BnkForge.Catalog.Prune
import Mathlib.Data.List.Perm.Basic

/-!
# What a prune keeps

The rows that a prune leaves alone, what a second run finds, and for modules and blueprints what is left
of the rows of a source.
-/

namespace BnkForge.Catalog

open List

/-! ### What a plan decides -/

section

variable {refs : Nat → Nat} {pinned : String} {q : PruneRequest} {rows : List Version} {v w : Version}
  {name : String} {d : Decision}

theorem mem_firstSeen {texts : List String} {text : String} :
    text ∈ firstSeen texts ↔ text ∈ texts := by
  rw [firstSeen, mem_reverse, mem_dedup, mem_reverse]

theorem nodup_firstSeen {texts : List String} : (firstSeen texts).Nodup :=
  nodup_reverse.mpr (nodup_dedup _)

theorem mem_group : v ∈ group rows name ↔ v ∈ rows ∧ v.name = name := by
  rw [group, ordered, (perm_insertionSort _ _).mem_iff, mem_filter, decide_eq_true_iff]

theorem kept_append_candidates : keptOf q rows name ++ candidatesOf q rows name = group rows name :=
  take_append_drop _ _

theorem mem_kept_or_candidates :
    v ∈ rows ∧ v.name = name ↔ v ∈ keptOf q rows name ∨ v ∈ candidatesOf q rows name := by
  rw [← mem_append, kept_append_candidates, mem_group]

def decisionOf (refs : Nat → Nat) (pinned : String) (q : PruneRequest) (rows : List Version)
    (v : Version) : Decision :=
  if v ∈ keptOf q rows v.name then keptDecision v
  else candidateDecision refs pinned q (sparedOf refs q rows v.name) v

@[simp] theorem row_candidateDecision {spared : Option Version} :
    (candidateDecision refs pinned q spared v).row = v := by
  unfold candidateDecision
  dsimp only
  split_ifs <;> rfl

@[simp] theorem row_decisionOf : (decisionOf refs pinned q rows v).row = v := by
  unfold decisionOf
  split
  · rfl
  · exact row_candidateDecision

theorem item_identity : (decisionOf refs pinned q rows v).item.identity = v.name := by
  unfold decisionOf candidateDecision
  dsimp only
  split_ifs <;> rfl

theorem item_version : (decisionOf refs pinned q rows v).item.version = v.version.getD "" := by
  unfold decisionOf candidateDecision
  dsimp only
  split_ifs <;> rfl

variable (hids : (rows.map Version.id).Nodup)

include hids

theorem nodup_group : (group rows name).Nodup :=
  (perm_insertionSort _ _).nodup_iff.mpr (hids.of_map.filter _)

theorem not_kept_of_candidate (h : v ∈ candidatesOf q rows name) : v ∉ keptOf q rows name :=
  fun hk ↦ (disjoint_take_drop (nodup_group hids) (Nat.le_refl _)) hk h

theorem mem_planGroup :
    d ∈ planGroup refs pinned q rows name ↔
      ∃ v ∈ rows, v.name = name ∧ d = decisionOf refs pinned q rows v := by
  rw [planGroup, mem_append, mem_map, mem_map]
  constructor
  · rintro (⟨v, hv, rfl⟩ | ⟨v, hv, rfl⟩)
    · obtain ⟨hrow, rfl⟩ := mem_kept_or_candidates.mpr (Or.inl hv)
      exact ⟨v, hrow, rfl, (if_pos hv).symm⟩
    · obtain ⟨hrow, rfl⟩ := mem_kept_or_candidates.mpr (Or.inr hv)
      exact ⟨v, hrow, rfl, (if_neg (not_kept_of_candidate hids hv)).symm⟩
  · rintro ⟨v, hrow, rfl, rfl⟩
    by_cases hk : v ∈ keptOf q rows v.name
    · exact Or.inl ⟨v, hk, (if_pos hk).symm⟩
    · have hc := (mem_kept_or_candidates.mp ⟨hrow, rfl⟩).resolve_left hk
      exact Or.inr ⟨v, hc, (if_neg hk).symm⟩

theorem mem_plan :
    d ∈ plan refs pinned q rows ↔ ∃ v ∈ rows, d = decisionOf refs pinned q rows v := by
  rw [plan, mem_flatMap]
  constructor
  · rintro ⟨name, -, hd⟩
    obtain ⟨v, hv, -, rfl⟩ := (mem_planGroup hids).mp hd
    exact ⟨v, hv, rfl⟩
  · rintro ⟨v, hv, rfl⟩
    exact ⟨v.name, mem_firstSeen.mpr (mem_map_of_mem hv),
      (mem_planGroup hids).mpr ⟨v, hv, rfl, rfl⟩⟩

theorem effectOn_plan (hv : v ∈ rows) :
    effectOn (plan refs pinned q rows) v.id = (decisionOf refs pinned q rows v).effect := by
  have hmem : decisionOf refs pinned q rows v ∈ plan refs pinned q rows :=
    (mem_plan hids).mpr ⟨v, hv, rfl⟩
  rw [effectOn]
  cases hfind : (plan refs pinned q rows).find? fun d ↦ d.row.id == v.id with
  | none => exact absurd (find?_eq_none.mp hfind _ hmem) (by simp)
  | some d =>
    obtain ⟨w, hw, rfl⟩ := (mem_plan hids).mp (mem_of_find?_eq_some hfind)
    have hid := find?_some hfind
    rw [row_decisionOf] at hid
    rw [inj_on_of_nodup_map hids hw hv (eq_of_beq hid)]
    rfl

theorem effectOn_plan_of_notMem {id : Nat} (h : id ∉ rows.map Version.id) :
    effectOn (plan refs pinned q rows) id = .nothing := by
  have hnone : (plan refs pinned q rows).find? (fun d ↦ d.row.id == id) = none := by
    refine find?_eq_none.mpr fun d hd hid ↦ h ?_
    obtain ⟨w, hw, rfl⟩ := (mem_plan hids).mp hd
    rw [row_decisionOf] at hid
    exact mem_map.mpr ⟨w, hw, eq_of_beq hid⟩
  rw [effectOn, hnone]
  rfl

theorem perm_plan : ((plan refs pinned q rows).map Decision.row).Perm rows := by
  have hgroup (name : String) : (planGroup refs pinned q rows name).map Decision.row = group rows name := by
    rw [planGroup, map_append, map_map, map_map, ← kept_append_candidates (q := q)]
    congr 1
    · exact (map_congr_left fun _ _ ↦ rfl).trans (map_id _)
    · exact (map_congr_left fun _ _ ↦ row_candidateDecision).trans (map_id _)
  have hrows : (plan refs pinned q rows).map Decision.row =
      (firstSeen (rows.map Version.name)).flatMap (group rows) := by
    rw [plan, map_flatMap, funext hgroup]
  rw [hrows]
  refine (perm_ext_iff_of_nodup (nodup_flatMap.mpr ⟨fun _ _ ↦ nodup_group hids, ?_⟩)
    hids.of_map).mpr fun v ↦ ?_
  · refine nodup_firstSeen.imp fun hne v hv hw ↦ hne ?_
    exact (mem_group.mp hv).2.symm.trans (mem_group.mp hw).2
  · rw [mem_flatMap]
    exact ⟨fun ⟨_, _, hv⟩ ↦ (mem_group.mp hv).1, fun hv ↦
      ⟨v.name, mem_firstSeen.mpr (mem_map_of_mem hv), mem_group.mpr ⟨hv, rfl⟩⟩⟩

end

/-! ### What is left alone -/

section

variable {refs : Nat → Nat} {pinned : String} {q : PruneRequest} {rows : List Version} {v w : Version}
  {name : String} {spared : Option Version}

theorem decisionOf_of_kept (h : v ∈ keptOf q rows v.name) :
    decisionOf refs pinned q rows v = keptDecision v := if_pos h

theorem effect_of_leftInUse (h : leftInUse refs q v = true) :
    (decisionOf refs pinned q rows v).effect = .nothing := by
  unfold decisionOf
  split
  · rfl
  unfold candidateDecision
  dsimp only
  split
  · rfl
  · rfl

theorem effect_of_spared (h : spared = some v) :
    (candidateDecision refs pinned q spared v).effect = .nothing := by
  rw [candidateDecision, if_pos (by simp [h])]

theorem candidateDecision_effect :
    let d := candidateDecision refs pinned q spared v
    (d.effect ≠ .nothing → d.touches = true) ∧
      (d.effect = .delete ↔ d.item.action = .deleted) ∧
      (d.effect = .delete → refs v.id = 0) ∧
      (d.effect = .deactivate → v.isActive = true) ∧
      (d.item.action = .deactivated → d.effect = .deactivate ∨ v.isActive = false) := by
  dsimp only
  unfold candidateDecision
  dsimp only
  split_ifs with h₁ h₂ h₃ h₄ h₅ h₆ <;> simp_all

theorem decisionOf_effect :
    let d := decisionOf refs pinned q rows v
    (d.effect ≠ .nothing → d.touches = true) ∧
      (d.effect = .delete ↔ d.item.action = .deleted) ∧
      (d.effect = .delete → refs v.id = 0) ∧
      (d.effect = .deactivate → v.isActive = true) ∧
      (d.item.action = .deactivated → d.effect = .deactivate ∨ v.isActive = false) := by
  unfold decisionOf
  split
  · simp [keptDecision]
  · exact candidateDecision_effect

theorem spareLastActive_eq_none_iff {kept candidates : List Version} :
    spareLastActive refs q kept candidates = none ↔
      (∃ v ∈ kept, v.isActive = true) ∨
      (∃ v ∈ candidates, v.isActive = true ∧ leftInUse refs q v = true) ∨
      ∀ v ∈ candidates, v.isActive = false := by
  unfold spareLastActive
  split
  · next h =>
    simp only [Bool.or_eq_true, any_eq_true, Bool.and_eq_true] at h
    exact iff_of_true rfl (h.imp_right Or.inl)
  · next h =>
    simp only [Bool.or_eq_true, any_eq_true, Bool.and_eq_true, not_or] at h
    rw [or_iff_right h.1, or_iff_right h.2, find?_eq_none]
    simp only [Bool.not_eq_true]

theorem spareLastActive_eq_some_iff {kept candidates : List Version} :
    spareLastActive refs q kept candidates = some w ↔
      (∀ v ∈ kept, v.isActive = false) ∧
      (∀ v ∈ candidates, v.isActive = true → leftInUse refs q v = false) ∧
      candidates.find? Version.isActive = some w := by
  unfold spareLastActive
  split
  · next h =>
    refine iff_of_false (by simp) fun ⟨hk, hc, _⟩ ↦ ?_
    simp only [Bool.or_eq_true, any_eq_true, Bool.and_eq_true] at h
    rcases h with ⟨v, hv, ha⟩ | ⟨v, hv, ha, hl⟩
    · exact Bool.false_ne_true ((hk v hv).symm.trans ha)
    · exact Bool.false_ne_true ((hc v hv ha).symm.trans hl)
  · next h =>
    simp only [Bool.or_eq_true, any_eq_true, Bool.and_eq_true, not_or, not_exists, not_and,
      Bool.not_eq_true] at h
    exact ⟨fun hfind ↦ ⟨h.1, h.2, hfind⟩, fun hfind ↦ hfind.2.2⟩

/-- Fewer than `keep` versions of its path are newer. -/
def NewestOfPath (keep : Nat) (rows : List Version) (v : Version) : Prop :=
  (rows.filter fun w ↦ w.name = v.name ∧ v.key < w.key).length < keep

theorem mem_take_of_newest {l : List Version} {keep : Nat} (hsorted : l.Pairwise Version.NotOlder)
    (hids : (l.map Version.id).Nodup) (hv : v ∈ l)
    (hnewest : (l.filter fun w ↦ v.key < w.key).length < keep) : v ∈ l.take keep := by
  induction l generalizing keep with
  | nil => cases hv
  | cons w l ih =>
    cases keep with
    | zero => cases hnewest
    | succ keep =>
      rw [take_succ_cons]
      rw [pairwise_cons] at hsorted
      rw [map_cons, nodup_cons] at hids
      rcases mem_cons.mp hv with rfl | hv
      · exact mem_cons_self
      · have hlt : v.key < w.key := by
          refine lt_of_le_of_ne (hsorted.1 v hv) fun heq ↦ hids.1 ?_
          exact mem_map.mpr ⟨v, hv, congrArg (fun k ↦ (ofLex k).2) heq⟩
        rw [filter_cons, if_pos (decide_eq_true hlt), length_cons, Nat.succ_lt_succ_iff]
          at hnewest
        exact mem_cons_of_mem _ (ih hsorted.2 hids.2 hv hnewest)

theorem mem_kept_of_newest (hids : (rows.map Version.id).Nodup) (hv : v ∈ rows)
    (h : NewestOfPath q.keep rows v) : v ∈ keptOf q rows v.name := by
  have hperm := perm_insertionSort Version.NotOlder (rows.filter fun w ↦ w.name = v.name)
  refine mem_take_of_newest (pairwise_insertionSort _ _) ?_ (mem_group.mpr ⟨hv, rfl⟩) ?_
  · exact (hperm.map _).nodup_iff.mpr (hids.sublist (filter_sublist.map _))
  · rw [group, ordered, (hperm.filter _).length_eq, filter_filter]
    refine lt_of_eq_of_lt (congrArg List.length (filter_congr fun w _ ↦ ?_)) h
    rw [Bool.decide_and, Bool.and_comm]

theorem exists_survivor (hids : (rows.map Version.id).Nodup) (hv : v ∈ rows)
    (hactive : v.isActive = true) :
    ∃ w ∈ rows, w.name = v.name ∧ w.isActive = true ∧
      (decisionOf refs pinned q rows w).effect = .nothing := by
  by_cases hk : ∃ w ∈ keptOf q rows v.name, w.isActive = true
  · obtain ⟨w, hw, ha⟩ := hk
    obtain ⟨hrow, hname⟩ := mem_kept_or_candidates.mpr (Or.inl hw)
    exact ⟨w, hrow, hname, ha, congrArg Decision.effect (decisionOf_of_kept (hname ▸ hw))⟩
  by_cases hu : ∃ w ∈ candidatesOf q rows v.name, w.isActive = true ∧ leftInUse refs q w = true
  · obtain ⟨w, hw, ha, hleft⟩ := hu
    obtain ⟨hrow, hname⟩ := mem_kept_or_candidates.mpr (Or.inr hw)
    exact ⟨w, hrow, hname, ha, effect_of_leftInUse hleft⟩
  have hc := (mem_kept_or_candidates (q := q).mp ⟨hv, rfl⟩).resolve_left fun h ↦ hk ⟨v, h, hactive⟩
  -- nothing else survives, so the newest active candidate is spared
  cases hspared : sparedOf refs q rows v.name with
  | none =>
    rcases spareLastActive_eq_none_iff.mp hspared with h | h | h
    · exact absurd h hk
    · exact absurd h hu
    · exact absurd hactive (by simp [h v hc])
  | some w =>
    have hfind := (spareLastActive_eq_some_iff.mp hspared).2.2
    have hw := mem_of_find?_eq_some hfind
    obtain ⟨hrow, hname⟩ := mem_kept_or_candidates.mpr (Or.inr hw)
    refine ⟨w, hrow, hname, find?_some hfind, ?_⟩
    rw [decisionOf, hname, if_neg (not_kept_of_candidate hids hw)]
    exact effect_of_spared hspared

end

/-! ### The second run -/

/-- A row after a plan, unless it is deleted. -/
def settled (effect : Version → PruneEffect) (v : Version) : Version :=
  if effect v = .deactivate then v.deactivate else v

def settle (effect : Version → PruneEffect) (rows : List Version) : List Version :=
  (rows.filter fun v ↦ effect v ≠ .delete).map (settled effect)

section

variable {effect : Version → PruneEffect} {refs : Nat → Nat} {pinned : String} {q : PruneRequest}
  {rows : List Version} {v w : Version} {name : String}

@[simp] theorem id_settled : (settled effect v).id = v.id := by
  unfold settled
  split <;> rfl

@[simp] theorem name_settled : (settled effect v).name = v.name := by
  unfold settled
  split <;> rfl

@[simp] theorem key_settled : (settled effect v).key = v.key := by
  unfold settled
  split <;> rfl

theorem isActive_settled :
    (settled effect v).isActive = true ↔ v.isActive = true ∧ effect v ≠ .deactivate := by
  unfold settled
  split
  · next h => simp [Version.deactivate, h]
  · next h => simp [h]

@[simp] theorem leftInUse_settled : leftInUse refs q (settled effect v) = leftInUse refs q v := by
  rw [leftInUse, leftInUse, id_settled]

theorem mem_settle :
    w ∈ settle effect rows ↔ ∃ v ∈ rows, effect v ≠ .delete ∧ settled effect v = w := by
  simp only [settle, mem_map, mem_filter, decide_eq_true_iff, and_assoc]

theorem ids_settle (hids : (rows.map Version.id).Nodup) :
    ((settle effect rows).map Version.id).Nodup := by
  rw [settle, map_map, show Version.id ∘ settled effect = Version.id from funext fun _ ↦ id_settled]
  exact hids.sublist (filter_sublist.map _)

theorem ordered_filter (hids : (rows.map Version.id).Nodup) (p : Version → Bool) :
    ordered (rows.filter p) = (ordered rows).filter p := by
  have hsorted : ∀ vs : List Version, (ordered vs).Pairwise Version.NotOlder := fun vs ↦
    pairwise_insertionSort _ vs
  refine List.Perm.eq_of_pairwise ?_ (hsorted _) ((hsorted rows).filter _)
    ((perm_insertionSort _ _).trans ((perm_insertionSort _ _).symm.filter _))
  intro v w hv hw hle hge
  have hv := mem_of_mem_filter ((perm_insertionSort _ _).mem_iff.mp hv)
  have hw := (perm_insertionSort _ _).mem_iff.mp (mem_of_mem_filter hw)
  exact inj_on_of_nodup_map hids hv hw (congrArg (fun k ↦ (ofLex k).2) (le_antisymm hge hle))

theorem group_settle (hids : (rows.map Version.id).Nodup) :
    group (settle effect rows) name = settle effect (group rows name) := by
  have hname : (settle effect rows).filter (fun v ↦ decide (v.name = name)) =
      settle effect (rows.filter fun v ↦ v.name = name) := by
    rw [settle, settle, filter_map, filter_filter, filter_filter]
    refine congrArg _ (filter_congr fun v _ ↦ ?_)
    simp only [Function.comp_apply, name_settled, Bool.and_comm]
  rw [group, hname, group, settle, settle, ← ordered_filter (hids.sublist (filter_sublist.map _))]
  exact (map_insertionSort _ _ _ _ fun v _ w _ ↦ by
    rw [Version.NotOlder, Version.NotOlder, key_settled, key_settled]).symm

end

section

variable {refs : Nat → Nat} {pinned : String} {q : PruneRequest} {rows : List Version} {v w : Version}
  {name : String} {spared : Option Version}

def effectOf (refs : Nat → Nat) (pinned : String) (q : PruneRequest) (rows : List Version)
    (v : Version) : PruneEffect := (decisionOf refs pinned q rows v).effect

theorem candidate_left (hactive : v.isActive = true)
    (h : (candidateDecision refs pinned q spared v).effect = .nothing) :
    spared.any (fun r ↦ r.id == v.id) = true ∨ leftInUse refs q v = true := by
  unfold candidateDecision at h
  dsimp only at h
  split_ifs at h with h₁ h₂ h₃ h₄ <;> simp_all

theorem candidateDecision_settled {effect : Version → PruneEffect}
    (heffect : effect v = (candidateDecision refs pinned q spared v).effect)
    (hkept : effect v ≠ .delete) :
    (candidateDecision refs pinned q spared (settled effect v)).effect = .nothing ∧
      ((candidateDecision refs pinned q spared (settled effect v)).touches = true →
        (candidateDecision refs pinned q spared v).touches = true) := by
  by_cases hs : spared.any (fun r ↦ r.id == v.id) = true
  · rw [candidateDecision, candidateDecision, id_settled, if_pos hs, if_pos hs]
    exact ⟨rfl, fun _ ↦ rfl⟩
  by_cases hl : leftInUse refs q v = true
  · rw [candidateDecision, id_settled, if_neg hs, leftInUse_settled, if_pos hl]
    exact ⟨rfl, fun h ↦ absurd h Bool.false_ne_true⟩
  -- what is neither spared nor in use is inactive now
  have hinactive : (settled effect v).isActive = false := by
    refine Bool.eq_false_iff.mpr fun h ↦ ?_
    obtain ⟨ha, hne⟩ := isActive_settled.mp h
    have hnothing : effect v = .nothing := by
      cases heq : effect v with
      | nothing => rfl
      | deactivate => exact absurd heq hne
      | delete => exact absurd heq hkept
    rcases candidate_left ha (heffect.symm.trans hnothing) with h | h
    · exact hs h
    · exact hl h
  by_cases hr : refs v.id ≠ 0
  · rw [candidateDecision, id_settled, if_neg hs, leftInUse_settled, if_neg hl, if_pos hr, hinactive]
    exact ⟨rfl, fun h ↦ absurd h Bool.false_ne_true⟩
  by_cases hd : q.delete = true
  · rw [candidateDecision, if_neg hs, if_neg hl, if_neg hr, if_pos hd] at heffect
    exact absurd heffect hkept
  · rw [candidateDecision, id_settled, if_neg hs, leftInUse_settled, if_neg hl, if_neg hr, if_neg hd,
      hinactive]
    exact ⟨rfl, fun h ↦ absurd h Bool.false_ne_true⟩

variable (q rows name) in
theorem length_kept_or : (keptOf q rows name).length = q.keep ∨ candidatesOf q rows name = [] := by
  rw [keptOf, candidatesOf, length_take, drop_eq_nil_iff]
  omega

theorem effectOf_of_kept (h : v ∈ keptOf q rows name) : effectOf refs pinned q rows v = .nothing := by
  obtain ⟨-, rfl⟩ := mem_kept_or_candidates.mpr (Or.inl h)
  rw [effectOf, decisionOf_of_kept h]
  rfl

theorem settle_kept :
    settle (effectOf refs pinned q rows) (keptOf q rows name) = keptOf q rows name := by
  have hall : (keptOf q rows name).filter (fun v ↦ effectOf refs pinned q rows v ≠ .delete) =
      keptOf q rows name :=
    filter_eq_self.mpr fun v hv ↦ by rw [effectOf_of_kept hv]; rfl
  rw [settle, hall]
  refine (map_congr_left fun v hv ↦ ?_).trans (map_id _)
  rw [settled, effectOf_of_kept hv]
  rfl

variable (hids : (rows.map Version.id).Nodup)

include hids

theorem group_settle_effectOf :
    group (settle (effectOf refs pinned q rows) rows) name =
      keptOf q rows name ++ settle (effectOf refs pinned q rows) (candidatesOf q rows name) := by
  rw [group_settle hids, ← kept_append_candidates (q := q), settle, filter_append, map_append]
  exact congrArg (· ++ _) settle_kept

theorem kept_settle :
    keptOf q (settle (effectOf refs pinned q rows) rows) name = keptOf q rows name := by
  rw [keptOf, group_settle_effectOf hids]
  rcases length_kept_or q rows name with h | h
  · exact take_left' h
  · rw [h, settle, filter_nil, map_nil, append_nil, keptOf, take_take, Nat.min_self]

theorem candidates_settle :
    candidatesOf q (settle (effectOf refs pinned q rows) rows) name =
      settle (effectOf refs pinned q rows) (candidatesOf q rows name) := by
  rw [candidatesOf, group_settle_effectOf hids]
  rcases length_kept_or q rows name with h | h
  · exact drop_left' h
  · rw [h, settle, filter_nil, map_nil, append_nil, keptOf, drop_take, Nat.sub_self,
      take_zero]

theorem spared_settle :
    sparedOf refs q (settle (effectOf refs pinned q rows) rows) name = sparedOf refs q rows name := by
  have hnothing {v : Version} (h : effectOf refs pinned q rows v = .nothing) :
      settled (effectOf refs pinned q rows) v = v := by
    rw [settled, h]
    rfl
  have hleft {v : Version} (hv : v ∈ candidatesOf q rows name)
      (h : effectOf refs pinned q rows v = .nothing) :
      v ∈ settle (effectOf refs pinned q rows) (candidatesOf q rows name) :=
    mem_settle.mpr ⟨v, hv, by rw [h]; exact PruneEffect.noConfusion, hnothing h⟩
  rw [sparedOf, kept_settle hids, candidates_settle hids]
  cases hspared : sparedOf refs q rows name with
  | none =>
    rw [spareLastActive_eq_none_iff]
    rcases spareLastActive_eq_none_iff.mp hspared with h | ⟨v, hv, ha, hl⟩ | h
    · exact Or.inl h
    · exact Or.inr (Or.inl ⟨v, hleft hv (effect_of_leftInUse hl), ha, hl⟩)
    · refine Or.inr (Or.inr fun w hw ↦ ?_)
      obtain ⟨v, hv, -, rfl⟩ := mem_settle.mp hw
      exact Bool.eq_false_iff.mpr fun ha ↦
        Bool.false_ne_true ((h v hv).symm.trans (isActive_settled.mp ha).1)
  | some s =>
    obtain ⟨hk, hc, hfind⟩ := spareLastActive_eq_some_iff.mp hspared
    have hs := mem_of_find?_eq_some hfind
    have heffect {v : Version} (hv : v ∈ candidatesOf q rows name) :
        effectOf refs pinned q rows v = (candidateDecision refs pinned q (some s) v).effect := by
      obtain ⟨-, rfl⟩ := mem_kept_or_candidates.mpr (Or.inr hv)
      rw [effectOf, decisionOf, if_neg (not_kept_of_candidate hids hv), hspared]
    have hspare : effectOf refs pinned q rows s = .nothing :=
      (heffect hs).trans (effect_of_spared rfl)
    have honly {w : Version} (hw : w ∈ settle (effectOf refs pinned q rows) (candidatesOf q rows name))
        (ha : w.isActive = true) : w = s := by
      obtain ⟨v, hv, hne, rfl⟩ := mem_settle.mp hw
      obtain ⟨hva, hnd⟩ := isActive_settled.mp ha
      have hn : effectOf refs pinned q rows v = .nothing := by
        cases heq : effectOf refs pinned q rows v with
        | nothing => rfl
        | deactivate => exact absurd heq hnd
        | delete => exact absurd heq hne
      rcases candidate_left hva ((heffect hv).symm.trans hn) with h | h
      · rw [hnothing hn]
        exact (inj_on_of_nodup_map hids (mem_kept_or_candidates.mpr (Or.inr hs)).1
          (mem_kept_or_candidates.mpr (Or.inr hv)).1 (eq_of_beq h)).symm
      · exact absurd ((hc v hv hva).symm.trans h) Bool.false_ne_true
    refine spareLastActive_eq_some_iff.mpr ⟨hk, fun w hw ha ↦ ?_, ?_⟩
    · rw [honly hw ha]
      exact hc s hs (find?_some hfind)
    · cases hagain : (settle (effectOf refs pinned q rows) (candidatesOf q rows name)).find?
        Version.isActive with
      | none => exact absurd (find?_some hfind) (find?_eq_none.mp hagain s (hleft hs hspare))
      | some w => rw [honly (mem_of_find?_eq_some hagain) (find?_some hagain)]

theorem effect_settle {v : Version} (hv : v ∈ rows) (hne : effectOf refs pinned q rows v ≠ .delete) :
    let d := decisionOf refs pinned q (settle (effectOf refs pinned q rows) rows)
      (settled (effectOf refs pinned q rows) v)
    d.effect = .nothing ∧
      (d.touches = true → (decisionOf refs pinned q rows v).touches = true) := by
  dsimp only
  by_cases hk : v ∈ keptOf q rows v.name
  · have hself : settled (effectOf refs pinned q rows) v = v := by
      rw [settled, effectOf_of_kept hk]
      rfl
    rw [hself, decisionOf_of_kept ((kept_settle hids).symm ▸ hk), decisionOf_of_kept hk]
    exact ⟨rfl, id⟩
  · have hc := (mem_kept_or_candidates (q := q).mp ⟨hv, rfl⟩).resolve_left hk
    have hc' : settled (effectOf refs pinned q rows) v ∈
        candidatesOf q (settle (effectOf refs pinned q rows) rows) v.name := by
      rw [candidates_settle hids]
      exact mem_settle.mpr ⟨v, hc, hne, rfl⟩
    rw [decisionOf, name_settled, if_neg (not_kept_of_candidate (ids_settle hids) hc'),
      spared_settle hids, decisionOf, if_neg hk]
    refine candidateDecision_settled ?_ hne
    rw [effectOf, decisionOf, if_neg hk]

theorem plan_settle {d : Decision}
    (hd : d ∈ plan refs pinned q (settle (effectOf refs pinned q rows) rows)) :
    d.effect = .nothing ∧
      (d.touches = true → d.row.name ∈ touchedPaths (plan refs pinned q rows)) := by
  obtain ⟨w, hw, rfl⟩ := (mem_plan (ids_settle hids)).mp hd
  obtain ⟨v, hv, hne, rfl⟩ := mem_settle.mp hw
  obtain ⟨hnothing, htouches⟩ := effect_settle hids hv hne
  refine ⟨hnothing, fun h ↦ mem_firstSeen.mpr (mem_map.mpr
    ⟨decisionOf refs pinned q rows v, mem_filter.mpr ⟨?_, htouches h⟩, ?_⟩)⟩
  · exact (mem_plan hids).mpr ⟨v, hv, rfl⟩
  · rw [row_decisionOf, row_decisionOf, name_settled]

end

theorem effectOn_eq_nothing {decisions : List Decision} {id : Nat}
    (h : ∀ d ∈ decisions, d.effect = .nothing) : effectOn decisions id = .nothing := by
  rw [effectOn]
  cases hfind : decisions.find? fun d ↦ d.row.id == id with
  | none => rfl
  | some d => exact h d (List.mem_of_find?_eq_some hfind)

theorem view_retired {ρ : Type} {view : ρ → Version} {ofSource : ρ → Bool} (deactivate : ρ → ρ)
    (effect : ρ → PruneEffect) {effectOf : Version → PruneEffect} {rows : List ρ}
    (hview : ∀ r, view (deactivate r) = (view r).deactivate)
    (hsrc : ∀ r, ofSource (deactivate r) = ofSource r)
    (heffect : ∀ r, effect (deactivate r) = effect r)
    (hof : ∀ r ∈ rows, ofSource r = true → effect r = effectOf (view r)) :
    (((rows.map fun r ↦ if effect r = .deactivate then deactivate r else r).filter
      fun r ↦ effect r ≠ .delete).filter ofSource).map view =
      settle effectOf ((rows.filter ofSource).map view) := by
  have hsrc' (r : ρ) : ofSource (if effect r = .deactivate then deactivate r else r) = ofSource r := by
    split
    · exact hsrc r
    · rfl
  have heffect' (r : ρ) : effect (if effect r = .deactivate then deactivate r else r) = effect r := by
    split
    · exact heffect r
    · rfl
  rw [filter_map, filter_map, map_map, filter_filter, settle, filter_map,
    map_map, filter_filter]
  have hfilter : (rows.filter fun r ↦ ofSource (if effect r = .deactivate then deactivate r else r) &&
      decide (effect (if effect r = .deactivate then deactivate r else r) ≠ .delete)) =
      rows.filter fun r ↦ decide (effectOf (view r) ≠ .delete) && ofSource r := by
    refine filter_congr fun r hr ↦ ?_
    rw [hsrc', heffect', Bool.and_comm]
    cases hs : ofSource r with
    | false => rw [Bool.and_false, Bool.and_false]
    | true => rw [hof r hr hs]
  refine (congrArg _ hfilter).trans (map_congr_left fun r hr ↦ ?_)
  obtain ⟨hr, hkeep⟩ := mem_filter.mp hr
  rw [Function.comp_apply, Function.comp_apply, settled, ← hof r hr (Bool.and_eq_true_iff.mp hkeep).2]
  split
  · exact hview r
  · rfl

/-! ### The rows of a source -/

def Reports (after : List Version) (v : Version) (item : PruneItem) : Prop :=
  item.identity = v.name ∧ item.version = v.version.getD "" ∧
    (item.action = .deleted → ∀ w ∈ after, w.id ≠ v.id) ∧
    (item.action = .deactivated → ∃ w ∈ after, w.id = v.id ∧ w.isActive = false)

/-- The rows before and after a prune of a source, and its items. -/
structure SafelyPruned {ρ : Type} (view : ρ → Version) (same : ρ → ρ → Prop) (ofSource : ρ → Bool)
    (refs : Nat → Nat) (q : PruneRequest) (before after : List ρ) (items : List PruneItem) : Prop where
  otherSources : ∀ r ∈ before, ofSource r = false → r ∈ after
  active : ∀ r ∈ before, ofSource r = true → (view r).isActive = true →
    ∃ p ∈ after, ofSource p = true ∧ (view p).name = (view r).name ∧ (view p).isActive = true
  referenced : ∀ r ∈ before, refs (view r).id ≠ 0 → ∃ p ∈ after, (view p).id = (view r).id
  newest : ∀ r ∈ before, ofSource r = true →
    NewestOfPath q.keep ((before.filter ofSource).map view) (view r) → ∃ p ∈ after, same r p
  inUse : q.includeInUse = false → ∀ r ∈ before, refs (view r).id ≠ 0 → ∃ p ∈ after, same r p
  reported : ∃ vs : List Version, vs.Perm ((before.filter ofSource).map view) ∧
    List.Forall₂ (Reports (after.map view)) vs items

section

variable {ρ : Type} {view : ρ → Version} {same : ρ → ρ → Prop} {ofSource : ρ → Bool}
  {refs : Nat → Nat} {pinned : String} {q : PruneRequest} {before after : List ρ}

theorem effectOn_view (hids : (before.map fun r ↦ (view r).id).Nodup) {r : ρ} (hr : r ∈ before) :
    effectOn (plan refs pinned q ((before.filter ofSource).map view)) (view r).id =
      if ofSource r = true then effectOf refs pinned q ((before.filter ofSource).map view) (view r)
      else .nothing := by
  have hsub : (((before.filter ofSource).map view).map Version.id).Nodup := by
    rw [map_map]
    exact hids.sublist (filter_sublist.map _)
  split
  · next h => exact effectOn_plan hsub (mem_map_of_mem (mem_filter.mpr ⟨hr, h⟩))
  · next h =>
    refine effectOn_plan_of_notMem hsub fun hmem ↦ h ?_
    rw [map_map] at hmem
    obtain ⟨p, hp, hid⟩ := mem_map.mp hmem
    obtain ⟨hp, hsrc⟩ := mem_filter.mp hp
    rwa [← inj_on_of_nodup_map hids hp hr hid]

theorem safelyPruned (hids : (before.map fun r ↦ (view r).id).Nodup)
    (hsame : ∀ {r p}, same r p → view p = view r ∧ ofSource p = ofSource r)
    (hleft : ∀ r ∈ before,
      effectOn (plan refs pinned q ((before.filter ofSource).map view)) (view r).id = .nothing →
      ∃ p ∈ after, same r p ∧ (ofSource r = false → p = r))
    (hdeactivated : ∀ r ∈ before,
      effectOn (plan refs pinned q ((before.filter ofSource).map view)) (view r).id = .deactivate →
      ∃ p ∈ after, view p = (view r).deactivate)
    (hdeleted : ∀ r ∈ before,
      effectOn (plan refs pinned q ((before.filter ofSource).map view)) (view r).id = .delete →
      ∀ p ∈ after, (view p).id ≠ (view r).id) :
    SafelyPruned view same ofSource refs q before after
      ((plan refs pinned q ((before.filter ofSource).map view)).map Decision.item) := by
  have hsub : (((before.filter ofSource).map view).map Version.id).Nodup := by
    rw [map_map]
    exact hids.sublist (filter_sublist.map _)
  have hmem {r : ρ} (hr : r ∈ before) (hsrc : ofSource r = true) :
      view r ∈ (before.filter ofSource).map view :=
    mem_map_of_mem (mem_filter.mpr ⟨hr, hsrc⟩)
  have hrow {v : Version} (hv : v ∈ (before.filter ofSource).map view) :
      ∃ r ∈ before, ofSource r = true ∧ view r = v := by
    obtain ⟨r, hr, rfl⟩ := mem_map.mp hv
    obtain ⟨hr, hsrc⟩ := mem_filter.mp hr
    exact ⟨r, hr, hsrc, rfl⟩
  have hof {r : ρ} (hr : r ∈ before) (hsrc : ofSource r = true) :
      effectOn (plan refs pinned q ((before.filter ofSource).map view)) (view r).id =
        effectOf refs pinned q ((before.filter ofSource).map view) (view r) := by
    rw [effectOn_view hids hr, if_pos hsrc]
  refine ⟨fun r hr hsrc ↦ ?_, fun r hr hsrc hactive ↦ ?_, fun r hr href ↦ ?_,
    fun r hr hsrc hnewest ↦ ?_, fun huse r hr href ↦ ?_, ?_⟩
  · obtain ⟨p, hp, -, heq⟩ := hleft r hr (by
      rw [effectOn_view hids hr, if_neg (Bool.eq_false_iff.mp hsrc)])
    exact heq hsrc ▸ hp
  · obtain ⟨w, hw, hname, hwa, heffect⟩ := exists_survivor hsub (hmem hr hsrc) hactive
    obtain ⟨r', hr', hsrc', rfl⟩ := hrow hw
    obtain ⟨p, hp, hsp, -⟩ := hleft r' hr' ((hof hr' hsrc').trans heffect)
    obtain ⟨hview, hof'⟩ := hsame hsp
    exact ⟨p, hp, hof'.trans hsrc', hview ▸ hname, hview ▸ hwa⟩
  · cases heffect : effectOn (plan refs pinned q ((before.filter ofSource).map view)) (view r).id with
    | nothing =>
      obtain ⟨p, hp, hsp, -⟩ := hleft r hr heffect
      exact ⟨p, hp, congrArg Version.id (hsame hsp).1⟩
    | deactivate =>
      obtain ⟨p, hp, hview⟩ := hdeactivated r hr heffect
      exact ⟨p, hp, hview ▸ rfl⟩
    | delete =>
      rw [effectOn_view hids hr] at heffect
      split at heffect
      · exact absurd (decisionOf_effect.2.2.1 heffect) href
      · cases heffect
  · obtain ⟨p, hp, hsp, -⟩ := hleft r hr ((hof hr hsrc).trans
      (effectOf_of_kept (mem_kept_of_newest hsub (hmem hr hsrc) hnewest)))
    exact ⟨p, hp, hsp⟩
  · obtain ⟨p, hp, hsp, -⟩ := hleft r hr (by
      rw [effectOn_view hids hr]
      split
      · exact effect_of_leftInUse (by simp [leftInUse, huse, href])
      · rfl)
    exact ⟨p, hp, hsp⟩
  · refine ⟨(plan refs pinned q ((before.filter ofSource).map view)).map Decision.row,
      perm_plan hsub, ?_⟩
    rw [forall₂_map_left_iff, forall₂_map_right_iff, forall₂_same]
    intro d hd
    obtain ⟨v, hv, rfl⟩ := (mem_plan hsub).mp hd
    obtain ⟨r, hr, hsrc, rfl⟩ := hrow hv
    rw [row_decisionOf]
    obtain ⟨-, hdel, -, -, hdeact⟩ := @decisionOf_effect refs pinned q
      ((before.filter ofSource).map view) (view r)
    refine ⟨item_identity, item_version, fun haction w hw ↦ ?_, fun haction ↦ ?_⟩
    · obtain ⟨p, hp, rfl⟩ := mem_map.mp hw
      exact hdeleted r hr ((hof hr hsrc).trans (hdel.mpr haction)) p hp
    · cases heffect : effectOf refs pinned q ((before.filter ofSource).map view) (view r) with
      | nothing =>
        obtain ⟨p, hp, hsp, -⟩ := hleft r hr ((hof hr hsrc).trans heffect)
        have hview := (hsame hsp).1
        have hinactive := (hdeact haction).resolve_left
          fun h ↦ PruneEffect.noConfusion (heffect.symm.trans h)
        exact ⟨view p, mem_map_of_mem hp, congrArg Version.id hview, hview ▸ hinactive⟩
      | deactivate =>
        obtain ⟨p, hp, hview⟩ := hdeactivated r hr ((hof hr hsrc).trans heffect)
        exact ⟨view p, mem_map_of_mem hp, hview ▸ rfl, hview ▸ rfl⟩
      | delete =>
        have := (hdel.mp heffect).symm.trans haction
        cases this

end

/-! ### Modules -/

section

variable {refs : Nat → Nat} {q : PruneRequest} {sources : List Nat} {s t : Table} {sourceId : Nat}
  {r p : Row} {decisions : List Decision}

theorem forM_eq_ok {assert : Decision → Except PruneError Unit} {ds : List Decision}
    (h : ∀ d ∈ ds, assert d = .ok ()) : ds.forM assert = .ok () := by
  induction ds with
  | nil => rfl
  | cons d ds ih =>
    change (assert d >>= fun _ ↦ ds.forM assert) = .ok ()
    rw [h d mem_cons_self]
    exact ih fun d hd ↦ h d (mem_cons_of_mem _ hd)

theorem forM_assert_eq_ok {assert : Decision → Except PruneError Unit} {pinned : String}
    {rows : List Version} (hids : (rows.map Version.id).Nodup)
    (hassert : ∀ d, (d.effect = .delete → refs d.row.id = 0) → assert d = .ok ()) :
    (plan refs pinned q rows).forM assert = .ok () := by
  refine forM_eq_ok fun d hd ↦ ?_
  obtain ⟨v, -, rfl⟩ := (mem_plan hids).mp hd
  refine hassert _ fun h ↦ ?_
  rw [row_decisionOf]
  exact decisionOf_effect.2.2.1 h

theorem Table.ids_versionsOf (s : Table) : ((s.versionsOf sourceId).map Version.id).Nodup := by
  rw [versionsOf, map_map]
  exact s.ids.sublist (filter_sublist.map _)

def Table.pruned (refs : Nat → Nat) (q : PruneRequest) (s : Table) (sourceId : Nat) : Table :=
  (touchedPaths (modulePlan refs q s sourceId)).foldl
    (fun t path ↦ recomputeIsLatest t t (some sourceId) path) (s.retire (modulePlan refs q s sourceId))

theorem pruneModuleSource_eq (h : sourceId ∈ sources) :
    pruneModuleSource refs q sources s sourceId =
      .ok (if q.dryRun = true then s else s.pruned refs q sourceId,
        ⟨sourceId, q.dryRun, q.keep, (modulePlan refs q s sourceId).map Decision.item⟩) := by
  have hassert : (modulePlan refs q s sourceId).forM (assertNoProjectModules refs) = .ok () :=
    forM_assert_eq_ok s.ids_versionsOf fun d hd ↦ if_neg fun ⟨he, hr⟩ ↦ hr (hd he)
  rw [pruneModuleSource, if_neg (not_not.mpr h)]
  cases hdry : q.dryRun with
  | true => rfl
  | false =>
    simp only [Bool.false_eq_true, if_false, hassert]
    rfl

theorem Table.nextId_retire : (s.retire decisions).nextId = s.nextId := rfl

theorem Table.mem_retire :
    p ∈ (s.retire decisions).rows ↔ ∃ r ∈ s.rows, effectOn decisions r.id ≠ .delete ∧
      p = if effectOn decisions r.id = .deactivate then r.deactivate else r := by
  have hid (r : Row) : (if effectOn decisions r.id = .deactivate then r.deactivate
      else r).id = r.id := by split <;> rfl
  rw [retire, keep, mem_filter, mapRows, mem_map, decide_eq_true_iff]
  constructor
  · rintro ⟨⟨r, hr, rfl⟩, hne⟩
    rw [hid] at hne
    exact ⟨r, hr, hne, rfl⟩
  · rintro ⟨r, hr, hne, rfl⟩
    exact ⟨⟨r, hr, rfl⟩, by rwa [hid]⟩

theorem Table.reflagged_pruned :
    (s.retire (modulePlan refs q s sourceId)).Reflagged (s.pruned refs q sourceId) :=
  reflagged_recomputeAll (Reflagged.refl _)

theorem Row.SameButFlag.toVersion (h : r.SameButFlag p) : p.toVersion = r.toVersion := by
  rw [← h]
  rfl

theorem mem_recomputeAll {paths : List String} (hsrc : r.moduleSourceId ≠ some sourceId)
    (hr : r ∈ s.rows) :
    r ∈ (paths.foldl (fun t path ↦ recomputeIsLatest t t (some sourceId) path) s).rows := by
  induction paths generalizing s with
  | nil => exact hr
  | cons path paths ih =>
    refine ih (mem_map.mpr ⟨r, hr, Row.reflag_of_notMem ?_⟩)
    rw [Table.found_eq (s.flushed_refl _), Table.id_mem_at hr]
    exact fun h ↦ hsrc (congrArg Prod.fst h)

theorem Table.safelyPruned_pruned :
    SafelyPruned Row.toVersion Row.SameButFlag (fun r ↦ r.moduleSourceId = some sourceId) refs q s.rows
      (s.pruned refs q sourceId).rows ((modulePlan refs q s sourceId).map Decision.item) := by
  refine safelyPruned s.ids (fun h ↦ ⟨h.toVersion, by rw [h.toStructural]⟩)
    (fun r hr heffect ↦ ?_) (fun r hr heffect ↦ ?_) fun r hr heffect p hp hid ↦ ?_
  · have hmem : r ∈ (s.retire (modulePlan refs q s sourceId)).rows :=
      mem_retire.mpr ⟨r, hr, fun h ↦ PruneEffect.noConfusion (heffect.symm.trans h),
        (if_neg fun h ↦ PruneEffect.noConfusion (heffect.symm.trans h)).symm⟩
    by_cases hsrc : r.moduleSourceId = some sourceId
    · obtain ⟨p, hp, hsame⟩ := reflagged_pruned.exists_of_mem_left hmem
      exact ⟨p, hp, hsame, fun h ↦ absurd hsrc (of_decide_eq_false h)⟩
    · exact ⟨r, mem_recomputeAll hsrc hmem, Row.SameButFlag.refl r, fun _ ↦ rfl⟩
  · have hmem : r.deactivate ∈ (s.retire (modulePlan refs q s sourceId)).rows :=
      mem_retire.mpr ⟨r, hr, fun h ↦ PruneEffect.noConfusion (heffect.symm.trans h),
        (if_pos heffect).symm⟩
    obtain ⟨p, hp, hsame⟩ := reflagged_pruned.exists_of_mem_left hmem
    exact ⟨p, hp, hsame.toVersion⟩
  · obtain ⟨p', hp', hsame⟩ := reflagged_pruned.exists_of_mem hp
    obtain ⟨r', hr', hne, rfl⟩ := mem_retire.mp hp'
    have hid' : r'.id = r.id := by
      refine Eq.trans ?_ (hsame.id.symm.trans hid)
      split <;> rfl
    exact hne (hid' ▸ heffect)

theorem Table.versionsOf_pruned :
    (s.pruned refs q sourceId).versionsOf sourceId =
      settle (effectOf refs "project module(s) pinned to it" q (s.versionsOf sourceId))
        (s.versionsOf sourceId) := by
  have hretire : (s.retire (modulePlan refs q s sourceId)).versionsOf sourceId =
      settle (effectOf refs "project module(s) pinned to it" q (s.versionsOf sourceId))
        (s.versionsOf sourceId) :=
    view_retired Row.deactivate (fun r ↦ effectOn (modulePlan refs q s sourceId) r.id)
      (fun _ ↦ rfl) (fun _ ↦ rfl) (fun _ ↦ rfl)
      fun r hr hsrc ↦ effectOn_plan s.ids_versionsOf (mem_map_of_mem (mem_filter.mpr ⟨hr, hsrc⟩))
  rw [← hretire]
  obtain ⟨f, hf, -, hrows⟩ := @reflagged_pruned refs q s sourceId
  rw [versionsOf, hrows, filter_map, map_map, versionsOf]
  refine (map_congr_left fun r _ ↦ (hf r).toVersion).trans (congrArg _ ?_)
  exact filter_congr fun r _ ↦ by rw [Function.comp_apply, (hf r).toStructural]

theorem Table.pruned_pruned :
    (s.pruned refs q sourceId).pruned refs q sourceId = s.pruned refs q sourceId := by
  have hplan : ∀ d ∈ modulePlan refs q (s.pruned refs q sourceId) sourceId, d.effect = .nothing ∧
      (d.touches = true → d.row.name ∈ touchedPaths (modulePlan refs q s sourceId)) := by
    rw [modulePlan, versionsOf_pruned]
    exact fun d hd ↦ plan_settle s.ids_versionsOf hd
  have hnothing (id : Nat) :
      effectOn (modulePlan refs q (s.pruned refs q sourceId) sourceId) id = .nothing :=
    effectOn_eq_nothing fun d hd ↦ (hplan d hd).1
  have hretire : (s.pruned refs q sourceId).retire
      (modulePlan refs q (s.pruned refs q sourceId) sourceId) = s.pruned refs q sourceId := by
    refine Table.ext ?_ nextId_retire
    rw [retire, keep, mapRows]
    simp only [hnothing, reduceCtorEq, if_false, map_id', ne_eq, not_false_eq_true, decide_true,
      filter_true]
  rw [pruned, hretire]
  refine recomputeAll_eq_self fun path hpath ↦ rightAt_recomputeAll (Or.inl ⟨path, ?_, rfl⟩)
  obtain ⟨d, hd, rfl⟩ := mem_map.mp (mem_firstSeen.mp hpath)
  obtain ⟨hd, htouches⟩ := mem_filter.mp hd
  exact (hplan d hd).2 htouches

theorem pruneModuleSource_again (h : sourceId ∈ sources) : ∃ again,
    pruneModuleSource refs q sources (s.pruned refs q sourceId) sourceId =
      .ok (s.pruned refs q sourceId, again) := by
  rw [pruneModuleSource_eq h, Table.pruned_pruned, ite_self]
  exact ⟨_, rfl⟩

end

/-! ### Blueprints -/

section

variable {refs : Nat → Nat} {q : PruneRequest} {sources : List Nat} {s : BlueprintTable}
  {sourceId : Nat} {r p : BlueprintRelease} {decisions : List Decision}

theorem BlueprintTable.ids_versionsOf (s : BlueprintTable) :
    ((s.versionsOf sourceId).map Version.id).Nodup := by
  rw [versionsOf, map_map]
  exact s.ids.sublist (filter_sublist.map _)

theorem pruneBlueprintSource_eq (h : sourceId ∈ sources) :
    pruneBlueprintSource refs q sources s sourceId =
      .ok (if q.dryRun = true then s else s.retire (blueprintPlan refs q s sourceId),
        ⟨sourceId, q.dryRun, q.keep, (blueprintPlan refs q s sourceId).map Decision.item⟩) := by
  have hassert : (blueprintPlan refs q s sourceId).forM (assertNoStackInstances refs) = .ok () :=
    forM_assert_eq_ok s.ids_versionsOf fun d hd ↦ if_neg fun ⟨he, hr⟩ ↦ hr (hd he)
  rw [pruneBlueprintSource, if_neg (not_not.mpr h)]
  cases hdry : q.dryRun with
  | true => rfl
  | false =>
    simp only [Bool.false_eq_true, if_false, hassert]
    rfl

theorem BlueprintTable.rows_retire : (s.retire decisions).rows =
    (s.rows.map fun r ↦ if effectOn decisions r.id = .deactivate then r.deactivate else r).filter
      fun r ↦ effectOn decisions r.id ≠ .delete := rfl

theorem BlueprintTable.mem_retire :
    p ∈ (s.retire decisions).rows ↔ ∃ r ∈ s.rows, effectOn decisions r.id ≠ .delete ∧
      p = if effectOn decisions r.id = .deactivate then r.deactivate else r := by
  have hid (r : BlueprintRelease) : (if effectOn decisions r.id = .deactivate then
      r.deactivate else r).id = r.id := by split <;> rfl
  rw [retire, mem_filter, mem_map, decide_eq_true_iff]
  constructor
  · rintro ⟨⟨r, hr, rfl⟩, hne⟩
    rw [hid] at hne
    exact ⟨r, hr, hne, rfl⟩
  · rintro ⟨r, hr, hne, rfl⟩
    exact ⟨⟨r, hr, rfl⟩, by rwa [hid]⟩

theorem BlueprintTable.safelyPruned_retire :
    SafelyPruned BlueprintRelease.toVersion Eq (fun r ↦ r.blueprintSourceId = sourceId) refs q s.rows
      (s.retire (blueprintPlan refs q s sourceId)).rows
      ((blueprintPlan refs q s sourceId).map Decision.item) := by
  refine safelyPruned s.ids (fun h ↦ by rw [h]; exact ⟨rfl, rfl⟩)
    (fun r hr heffect ↦ ?_) (fun r hr heffect ↦ ?_) fun r hr heffect p hp hid ↦ ?_
  · exact ⟨r, mem_retire.mpr ⟨r, hr, fun h ↦ PruneEffect.noConfusion (heffect.symm.trans h),
      (if_neg fun h ↦ PruneEffect.noConfusion (heffect.symm.trans h)).symm⟩, rfl, fun _ ↦ rfl⟩
  · exact ⟨_, mem_retire.mpr ⟨r, hr, fun h ↦ PruneEffect.noConfusion (heffect.symm.trans h),
      (if_pos heffect).symm⟩, rfl⟩
  · obtain ⟨r', hr', hne, rfl⟩ := mem_retire.mp hp
    have hid' : r'.id = r.id := by
      refine Eq.trans ?_ hid
      change r'.id = BlueprintRelease.id _
      split <;> rfl
    exact hne (hid' ▸ heffect)

theorem BlueprintTable.versionsOf_retire :
    (s.retire (blueprintPlan refs q s sourceId)).versionsOf sourceId =
      settle (effectOf refs "stack instance(s) deployed from it" q (s.versionsOf sourceId))
        (s.versionsOf sourceId) := by
  rw [versionsOf, rows_retire]
  exact view_retired BlueprintRelease.deactivate
    (fun r ↦ effectOn (blueprintPlan refs q s sourceId) r.id) (fun _ ↦ rfl) (fun _ ↦ rfl)
    (fun _ ↦ rfl) fun r hr hsrc ↦
      effectOn_plan s.ids_versionsOf (mem_map_of_mem (mem_filter.mpr ⟨hr, hsrc⟩))

theorem BlueprintTable.retire_retire :
    (s.retire (blueprintPlan refs q s sourceId)).retire
      (blueprintPlan refs q (s.retire (blueprintPlan refs q s sourceId)) sourceId) =
      s.retire (blueprintPlan refs q s sourceId) := by
  have hnothing (id : Nat) : effectOn
      (blueprintPlan refs q (s.retire (blueprintPlan refs q s sourceId)) sourceId) id = .nothing := by
    rw [blueprintPlan, versionsOf_retire]
    exact effectOn_eq_nothing fun d hd ↦ (plan_settle s.ids_versionsOf hd).1
  refine BlueprintTable.ext ?_
  rw [retire]
  simp only [hnothing, reduceCtorEq, if_false, map_id', ne_eq, not_false_eq_true, decide_true,
    filter_true]

theorem pruneBlueprintSource_again (h : sourceId ∈ sources) : ∃ again,
    pruneBlueprintSource refs q sources (s.retire (blueprintPlan refs q s sourceId)) sourceId =
      .ok (s.retire (blueprintPlan refs q s sourceId), again) := by
  rw [pruneBlueprintSource_eq h, BlueprintTable.retire_retire, ite_self]
  exact ⟨_, rfl⟩

end

/-! ### Pruning is safe -/

/-- For modules and for blueprints, a prune is safe, reports what a dry run reports, and changes nothing
when it is run again. -/
theorem prune_is_safe (refs : Nat → Nat) (keep : Nat) (delete includeInUse : Bool)
    (sources : List Nat) (sourceId : Nat) (h : sourceId ∈ sources) :
    (∀ s : Table, ∃ t items again,
      pruneModuleSource refs ⟨keep, delete, false, includeInUse⟩ sources s sourceId =
        .ok (t, ⟨sourceId, false, keep, items⟩) ∧
      pruneModuleSource refs ⟨keep, delete, true, includeInUse⟩ sources s sourceId =
        .ok (s, ⟨sourceId, true, keep, items⟩) ∧
      SafelyPruned Row.toVersion Row.SameButFlag (fun r ↦ r.moduleSourceId = some sourceId) refs
        ⟨keep, delete, false, includeInUse⟩ s.rows t.rows items ∧
      pruneModuleSource refs ⟨keep, delete, false, includeInUse⟩ sources t sourceId =
        .ok (t, again)) ∧
    (∀ s : BlueprintTable, ∃ t items again,
      pruneBlueprintSource refs ⟨keep, delete, false, includeInUse⟩ sources s sourceId =
        .ok (t, ⟨sourceId, false, keep, items⟩) ∧
      pruneBlueprintSource refs ⟨keep, delete, true, includeInUse⟩ sources s sourceId =
        .ok (s, ⟨sourceId, true, keep, items⟩) ∧
      SafelyPruned BlueprintRelease.toVersion Eq (fun r ↦ r.blueprintSourceId = sourceId) refs
        ⟨keep, delete, false, includeInUse⟩ s.rows t.rows items ∧
      pruneBlueprintSource refs ⟨keep, delete, false, includeInUse⟩ sources t sourceId =
        .ok (t, again)) := by
  constructor
  · intro s
    obtain ⟨again, hagain⟩ := @pruneModuleSource_again refs
      ⟨keep, delete, false, includeInUse⟩ sources s sourceId h
    exact ⟨s.pruned refs ⟨keep, delete, false, includeInUse⟩ sourceId,
      (modulePlan refs ⟨keep, delete, false, includeInUse⟩ s sourceId).map Decision.item, again,
      pruneModuleSource_eq h, pruneModuleSource_eq h, Table.safelyPruned_pruned, hagain⟩
  · intro s
    obtain ⟨again, hagain⟩ := @pruneBlueprintSource_again refs
      ⟨keep, delete, false, includeInUse⟩ sources s sourceId h
    exact ⟨s.retire (blueprintPlan refs ⟨keep, delete, false, includeInUse⟩ s sourceId),
      (blueprintPlan refs ⟨keep, delete, false, includeInUse⟩ s sourceId).map Decision.item, again,
      pruneBlueprintSource_eq h, pruneBlueprintSource_eq h, BlueprintTable.safelyPruned_retire, hagain⟩

def newestInactive : Table where
  rows := [⟨pack (some "a") (some "a") (some "1") (some "h1"), 1, true, false⟩,
    ⟨pack (some "a") (some "a") (some "2") (some "h2"), 2, true, true⟩,
    ⟨pack (some "a") (some "a") (some "3") (some "h3"), 3, false, false⟩]
  nextId := 4
  ids := by decide
  fresh := by decide

theorem newestInactive_prune_is_safe :
    ∃ t items, pruneModuleSource (fun id ↦ if id = 1 then 1 else 0) ⟨1, true, false, false⟩ [1]
      newestInactive 1 = .ok (t, ⟨1, false, 1, items⟩) ∧
      SafelyPruned Row.toVersion Row.SameButFlag (fun r ↦ r.moduleSourceId = some 1)
        (fun id ↦ if id = 1 then 1 else 0) ⟨1, true, false, false⟩ newestInactive.rows t.rows items :=
  let ⟨t, items, _, hrun, _, hsafe, _⟩ := (prune_is_safe (fun id ↦ if id = 1 then 1 else 0) 1 true false
    [1] 1 List.mem_cons_self).1 newestInactive
  ⟨t, items, hrun, hsafe⟩

/-- The version that is in use is given the flag, also where versions in use are left alone. -/
theorem version_in_use_flagged :
    ¬ ∀ (refs : Nat → Nat) (q : PruneRequest) (sources : List Nat) (s t : Table) (sourceId : Nat)
      (result : PruneResult), 1 ≤ q.keep → q.includeInUse = false →
      pruneModuleSource refs q sources s sourceId = .ok (t, result) →
      ∀ r ∈ s.rows, refs r.id ≠ 0 → r ∈ t.rows := by
  intro h
  have hmem := h (fun id ↦ if id = 1 then 1 else 0) ⟨1, false, false, false⟩ [1] newestInactive _ 1 _
    (Nat.le_refl 1) rfl (pruneModuleSource_eq List.mem_cons_self)
    ⟨pack (some "a") (some "a") (some "1") (some "h1"), 1, true, false⟩ List.mem_cons_self (by decide)
  have hflags : (1, false) ∉ ((newestInactive.pruned (fun id ↦ if id = 1 then 1 else 0)
      ⟨1, false, false, false⟩ 1).rows.map fun r ↦ (r.id, r.isLatest)) := by decide
  exact hflags (List.mem_map_of_mem hmem)

end BnkForge.Catalog
