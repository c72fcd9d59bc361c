import BnkForge.Catalog.Import
import BnkForge.Catalog.Retention
import BnkForge.Lib.Transition

/-!
# One latest version

Imports, inactivations and prunes in any order: what they leave of a row that carries a content hash
(`_enforce_module_version_structural_immutability`, `backend/models/module.py:156–204`), and when every
path with an active version has exactly one row with `is_latest`.
-/

namespace BnkForge.Catalog

open Python Transition List

/-! ### The events -/

inductive CatalogEvent
  | importPack (first : First) (source : ModuleSource) (info : ModuleInfo) (modulePath : String)
  | inactivate (pins : List ProjectPin) (sourceId : Nat) (discovered : List String)
  | prune (refs : Nat → Nat) (q : PruneRequest) (sources : List Nat) (sourceId : Nat)

section

variable (repr : Value → String) (contentSha : ModuleInfo → String)

/-- What raises is rolled back. -/
def catalogStep (s : Table) : CatalogEvent → Option Table
  | .importPack first source info modulePath =>
    match importPackModule first s source info modulePath repr contentSha with
    | .ok (t, _) => some t
    | .error _ => some s
  | .inactivate pins sourceId discovered =>
    some (inactivateStaleManifestModules s pins sourceId discovered).1
  | .prune refs q sources sourceId =>
    match pruneModuleSource refs q sources s sourceId with
    | .ok (t, _) => some t
    | .error _ => some s

end

/-- Every path with an active version has one row with the flag, which is the newest active one, and the
other paths have none. -/
def ExactlyOneLatest (s : Table) : Prop :=
  ∀ place, if ∃ r ∈ s.rows, r.place = place ∧ r.isActive = true then
    ∃ l ∈ s.rows, (∀ r ∈ s.rows, r.place = place → (r.isLatest = true ↔ r = l)) ∧
      l.place = place ∧ l.isActive = true ∧
      ∀ r ∈ s.rows, r.place = place → r.isActive = true → r.sortKey ≤ l.sortKey
    else ∀ r ∈ s.rows, r.place = place → r.isLatest = false

/-- What carries a content hash has the columns that it had, and ids are not given again. -/
def Frozen (s t : Table) : Prop :=
  s.nextId ≤ t.nextId ∧ ∀ q ∈ t.rows, q.id < s.nextId → ∃ r ∈ s.rows, r.id = q.id ∧
    (r.contentSha256 ≠ none → q.toStructural = r.toStructural)

/-! ### Rows that carry a hash -/

section

variable {s t u : Table} {r : Row}

theorem Frozen.refl (s : Table) : Frozen s s := ⟨Nat.le_refl _, fun q hq _ ↦ ⟨q, hq, rfl, fun _ ↦ rfl⟩⟩

theorem Frozen.trans (h : Frozen s t) (h' : Frozen t u) : Frozen s u := by
  refine ⟨Nat.le_trans h.1 h'.1, fun q hq hlt ↦ ?_⟩
  obtain ⟨p, hp, hpid, hpq⟩ := h'.2 q hq (Nat.lt_of_lt_of_le hlt h.1)
  obtain ⟨r, hr, hrid, hrp⟩ := h.2 p hp (hpid ▸ hlt)
  refine ⟨r, hr, hrid.trans hpid, fun hsha ↦ ?_⟩
  have hsame := hrp hsha
  exact (hpq (hsame ▸ hsha)).trans hsame

theorem frozen_of_map (f : Row → Row) (hnext : s.nextId ≤ t.nextId)
    (hrows : ∀ q ∈ t.rows, ∃ r ∈ s.rows, q = f r) (hid : ∀ r ∈ s.rows, (f r).id = r.id)
    (hf : ∀ r ∈ s.rows, r.contentSha256 ≠ none → (f r).toStructural = r.toStructural) : Frozen s t := by
  refine ⟨hnext, fun q hq _ ↦ ?_⟩
  obtain ⟨r, hr, rfl⟩ := hrows q hq
  exact ⟨r, hr, (hid r hr).symm, hf r hr⟩

theorem Table.Reflagged.frozen (h : s.Reflagged t) : Frozen s t := by
  obtain ⟨f, hf, hnext, hrows⟩ := h
  refine frozen_of_map f (Nat.le_of_eq hnext.symm) (fun q hq ↦ ?_) (fun r _ ↦ (hf r).id)
    fun r _ _ ↦ (hf r).toStructural
  obtain ⟨r, hr, rfl⟩ := mem_map.mp (hrows ▸ hq)
  exact ⟨r, hr, rfl⟩

theorem id_update {id : Nat} {f : Row → Row} (hid : ∀ r, (f r).id = r.id) (r : Row) :
    (if r.id = id then f r else r).id = r.id := by
  split
  · exact hid r
  · rfl

theorem frozen_update {id : Nat} {f : Row → Row} {hid : ∀ r, (f r).id = r.id}
    (h : ∀ r ∈ s.rows, r.id = id → r.contentSha256 ≠ none → (f r).toStructural = r.toStructural) :
    Frozen s (s.update id f hid) := by
  refine frozen_of_map (fun r ↦ if r.id = id then f r else r) (Nat.le_refl _) (fun q hq ↦ ?_)
    (fun r _ ↦ id_update hid r) fun r hr hsha ↦ ?_
  · obtain ⟨r, hr, rfl⟩ := mem_map.mp hq
    exact ⟨r, hr, rfl⟩
  · split
    · next heq => exact h r hr heq hsha
    · rfl

theorem frozen_insert {columns : Structural} {a l : Bool} : Frozen s (s.insert columns a l) := by
  refine ⟨Nat.le_succ _, fun q hq hlt ↦ ?_⟩
  rcases mem_append.mp hq with hq | hq
  · exact ⟨q, hq, rfl, fun _ ↦ rfl⟩
  · rw [mem_singleton.mp hq] at hlt
    exact absurd hlt (Nat.lt_irrefl _)

theorem mem_of_findExisting {first : First} {source : ModuleSource} {info : ModuleInfo}
    {modulePath : String} (h : findExisting first s source info modulePath = some r) :
    r ∈ s.rows ∧ r.moduleSourceId = some source.id := by
  have hpick {p : Row → Bool}
      (h : first.pick ((s.rows.filter fun r ↦ r.moduleSourceId = some source.id).filter p) = some r) :
      r ∈ s.rows ∧ r.moduleSourceId = some source.id := by
    obtain ⟨hr, hsrc⟩ := mem_filter.mp (mem_of_mem_filter (first.mem h))
    exact ⟨hr, of_decide_eq_true hsrc⟩
  rw [findExisting] at h
  rcases Option.or_eq_some_iff.mp h with h | ⟨-, h⟩
  · exact hpick h
  · rcases Option.or_eq_some_iff.mp h with h | ⟨-, h⟩
    · exact hpick h
    · exact hpick h

theorem importPackModule_cases {repr : Value → String} {contentSha : ModuleInfo → String}
    {first : First} {source : ModuleSource} {info : ModuleInfo} {modulePath : String}
    {outcome : ImportOutcome}
    (h : importPackModule first s source info modulePath repr contentSha = .ok (t, outcome)) :
    t = s ∨
    (∃ e, findExisting first s source info modulePath = some e ∧ e.isBuiltinSsh = false ∧
      e.contentSha256 ≠ none ∧ e.isActive = false ∧
      t = recomputeIsLatest s (s.update e.id Row.activate fun _ ↦ rfl) (some source.id)
        (orElse e.path modulePath)) ∨
    (∃ e, findExisting first s source info modulePath = some e ∧ e.isBuiltinSsh = false ∧
      e.contentSha256 = none ∧
      t = recomputeIsLatest s (s.update e.id (fun r ↦
          ⟨grandfathered repr (contentSha info) source info modulePath e.toStructural, r.id, true,
            r.isLatest⟩) fun _ ↦ rfl)
        (some source.id) (orElse (orText info.path e.path) modulePath)) ∨
    t = recomputeIsLatest (s.insert (created repr (contentSha info) source info modulePath) true true)
      (s.insert (created repr (contentSha info) source info modulePath) true true) (some source.id)
      (orElse (some (orElse info.path modulePath)) modulePath) := by
  unfold importPackModule at h
  split at h
  · next e he =>
    split at h
    · cases h
      exact Or.inl rfl
    · next hbuiltin =>
      have hbuiltin := Bool.eq_false_iff.mpr hbuiltin
      split at h
      · next sha hsha =>
        dsimp only at h
        split at h
        · cases h
          exact Or.inl rfl
        · next hactive =>
          cases h
          exact Or.inr (Or.inl ⟨e, he, hbuiltin, by rw [hsha]; exact Option.some_ne_none _,
            Bool.eq_false_iff.mpr hactive, rfl⟩)
      · next hsha =>
        dsimp only at h
        split at h
        · cases h
        · cases h
          exact Or.inr (Or.inr (Or.inl ⟨e, he, hbuiltin, hsha, rfl⟩))
  · split at h
    · cases h
      exact Or.inl rfl
    · dsimp only at h
      split at h
      · cases h
      · cases h
        exact Or.inr (Or.inr (Or.inr rfl))

theorem prune_cases {refs : Nat → Nat} {q : PruneRequest} {sources : List Nat} {sourceId : Nat}
    {result : PruneResult} (h : pruneModuleSource refs q sources s sourceId = .ok (t, result)) :
    t = s ∨ q.dryRun = false ∧ t = s.pruned refs q sourceId := by
  by_cases hsource : sourceId ∈ sources
  · rw [pruneModuleSource_eq hsource] at h
    cases hdry : q.dryRun with
    | true =>
      rw [if_pos hdry] at h
      cases h
      exact Or.inl rfl
    | false =>
      rw [if_neg (Bool.eq_false_iff.mp hdry)] at h
      cases h
      exact Or.inr ⟨rfl, rfl⟩
  · rw [pruneModuleSource, if_pos hsource] at h
    cases h

theorem catalogStep_frozen {repr : Value → String} {contentSha : ModuleInfo → String}
    {e : CatalogEvent} (h : catalogStep repr contentSha s e = some t) : Frozen s t := by
  cases e with
  | importPack first source info modulePath =>
    rw [catalogStep] at h
    split at h
    · next t' outcome himport =>
      cases h
      rcases importPackModule_cases himport with rfl | ⟨e, -, -, -, -, rfl⟩ | ⟨e, he, -, hsha, rfl⟩ | rfl
      · exact Frozen.refl _
      · refine Frozen.trans ?_ reflagged_recompute.frozen
        exact frozen_update fun _ _ _ _ ↦ rfl
      · refine (frozen_update fun r hr hid hne ↦ absurd ?_ hne).trans reflagged_recompute.frozen
        rwa [Table.eq_of_id hr (mem_of_findExisting he).1 hid]
      · exact frozen_insert.trans reflagged_recompute.frozen
    · cases h
      exact Frozen.refl _
  | inactivate pins sourceId discovered =>
    cases h
    have hdeactivated : Frozen s (s.deactivateStale sourceId discovered) := by
      refine frozen_of_map (fun r ↦ if r.isStale sourceId discovered then r.deactivate else r)
        (Nat.le_refl _) (fun q hq ↦ ?_) (fun r _ ↦ ?_) fun r _ _ ↦ ?_
      · obtain ⟨r, hr, rfl⟩ := mem_map.mp hq
        exact ⟨r, hr, rfl⟩
      · split <;> rfl
      · split <;> rfl
    exact hdeactivated.trans (reflagged_recomputeAll (Table.Reflagged.refl _)).frozen
  | prune refs q sources sourceId =>
    rw [catalogStep] at h
    split at h
    · next t' result hprune =>
      cases h
      rcases prune_cases hprune with rfl | ⟨-, rfl⟩
      · exact Frozen.refl _
      · refine Frozen.trans ?_ Table.reflagged_pruned.frozen
        refine frozen_of_map (fun r ↦
          if effectOn (modulePlan refs q s sourceId) r.id = .deactivate then r.deactivate else r)
          (Nat.le_of_eq Table.nextId_retire.symm) (fun q hq ↦ ?_) (fun r _ ↦ ?_) fun r _ _ ↦ ?_
        · obtain ⟨r, hr, -, rfl⟩ := Table.mem_retire.mp hq
          exact ⟨r, hr, rfl⟩
        · split <;> rfl
        · split <;> rfl
    · cases h
      exact Frozen.refl _

end

/-! ### The flags -/

section

variable {s t stored : Table} {rows rows' : List Row} {r : Row} {place : Option Nat × Option String}

theorem exists_newest (hr : r ∈ rows) (hactive : r.isActive = true) :
    ∃ l ∈ rows, l.place = r.place ∧ Newest rows l := by
  have hmem : r ∈ (rows.filter fun q ↦ q.place = r.place).filter Row.isActive :=
    mem_filter.mpr ⟨mem_filter.mpr ⟨hr, decide_eq_true rfl⟩, hactive⟩
  cases hl : latest (rows.filter fun q ↦ q.place = r.place) with
  | none =>
    rw [argmax_eq_none.mp hl] at hmem
    cases hmem
  | some l =>
    obtain ⟨hl', hla⟩ := mem_filter.mp (argmax_mem hl)
    obtain ⟨hl', hplace⟩ := mem_filter.mp hl'
    refine ⟨l, hl', of_decide_eq_true hplace, hla, fun q hq hsame hqa ↦ ?_⟩
    refine le_of_mem_argmax (mem_filter.mpr ⟨mem_filter.mpr ⟨hq, ?_⟩, hqa⟩) hl
    exact decide_eq_true (hsame.trans (of_decide_eq_true hplace))

theorem newest_unique {l : Row} (hr : r ∈ s.rows) (hl : l ∈ s.rows) (hplace : r.place = l.place)
    (hnr : Newest s.rows r) (hnl : Newest s.rows l) : r = l := by
  have hkey : r.sortKey = l.sortKey :=
    le_antisymm (hnl.2 r hr hplace hnr.1) (hnr.2 l hl hplace.symm hnl.1)
  exact Table.eq_of_id hr hl (congrArg (fun k ↦ (ofLex k).2) hkey)

theorem exactlyOneLatest_iff : ExactlyOneLatest s ↔ ∀ place, RightAt s.rows place := by
  refine forall_congr' fun place ↦ ?_
  split
  · next hsome =>
    obtain ⟨r, hr, rfl, hactive⟩ := hsome
    constructor
    · rintro ⟨l, hl, hflag, hplace, hla, hmax⟩ p hp hpp
      have hnewest : Newest s.rows l := ⟨hla, fun q hq hsame ↦ hmax q hq (hsame.trans hplace)⟩
      rw [hflag p hp hpp]
      exact ⟨fun h ↦ h ▸ hnewest, fun h ↦ newest_unique hp hl (hpp.trans hplace.symm) h hnewest⟩
    · intro hright
      obtain ⟨l, hl, hplace, hnewest⟩ := exists_newest hr hactive
      refine ⟨l, hl, fun p hp hpp ↦ ?_, hplace, hnewest.1,
        fun p hp hpp hpa ↦ hnewest.2 p hp (hpp.trans hplace.symm) hpa⟩
      rw [hright p hp hpp]
      exact ⟨fun h ↦ newest_unique hp hl (hpp.trans hplace.symm) h hnewest, fun h ↦ h ▸ hnewest⟩
  · next hnone =>
    have hno {p : Row} (hp : p ∈ s.rows) (hpp : p.place = place) : ¬ Newest s.rows p :=
      fun h ↦ hnone ⟨p, hp, hpp, h.1⟩
    refine forall_congr' fun p ↦ forall_congr' fun hp ↦ forall_congr' fun hpp ↦ ?_
    rw [iff_false_right (hno hp hpp), Bool.not_eq_true]

theorem rightAt_of_subset (h : RightAt rows place)
    (hkeep : ∀ r ∈ rows, r.place = place → r.isLatest = true → r ∈ rows')
    (hsub : ∀ r ∈ rows', r.place = place →
      r ∈ rows ∨ r.isActive = false ∧ r.isLatest = false) : RightAt rows' place := by
  intro r hr hplace
  rcases hsub r hr hplace with hrows | ⟨hactive, hlatest⟩
  · rw [h r hrows hplace]
    constructor
    · rintro ⟨ha, hmax⟩
      refine ⟨ha, fun q hq hsame hqa ↦ ?_⟩
      rcases hsub q hq (hsame.trans hplace) with hq | ⟨hqi, -⟩
      · exact hmax q hq hsame hqa
      · exact absurd hqa (Bool.eq_false_iff.mp hqi)
    · rintro ⟨ha, hmax⟩
      refine ⟨ha, fun q hq hsame hqa ↦ ?_⟩
      -- the newest row of all has the flag, so it is still there
      obtain ⟨l, hl, hlp, hnewest⟩ := exists_newest hq hqa
      have hlplace := hlp.trans (hsame.trans hplace)
      have hle := hmax l (hkeep l hl hlplace ((h l hl hlplace).mpr hnewest)) (hlp.trans hsame) hnewest.1
      exact le_trans (hnewest.2 q hq hlp.symm hqa) hle
  · exact iff_of_false (by simp [hlatest]) fun hnewest ↦ by simp [hnewest.1] at hactive

theorem rightAt_update_of_ne {id : Nat} {f : Row → Row} {hid : ∀ r, (f r).id = r.id}
    (hf : ∀ r ∈ s.rows, r.id = id → (f r).place = r.place ∧ r.place ≠ place) :
    RightAt (s.update id f hid).rows place ↔ RightAt s.rows place := by
  refine rightAt_congr fun r hplace ↦ ?_
  constructor
  · intro hr
    obtain ⟨q, hq, rfl⟩ := mem_map.mp hr
    by_cases heq : q.id = id
    · rw [if_pos heq] at hplace
      exact absurd ((hf q hq heq).1.symm.trans hplace) (hf q hq heq).2
    · rwa [if_neg heq]
  · intro hr
    refine mem_map.mpr ⟨r, hr, if_neg fun heq ↦ ?_⟩
    exact (hf r hr heq).2 hplace

theorem flushed_update {id : Nat} {f : Row → Row} {hid : ∀ r, (f r).id = r.id}
    (hf : ∀ r ∈ s.rows, r.id = id → (f r).place = r.place) : s.Flushed (s.update id f hid) := by
  intro place r hr
  obtain ⟨q, hq, rfl⟩ := mem_map.mp hr
  have hplace : (if q.id = id then f q else q).place = q.place := by
    split
    · next heq => exact hf q hq heq
    · rfl
  rw [id_update hid, hplace]
  exact s.flushed_refl place q hq

theorem rightAt_recompute_update {id : Nat} {f : Row → Row} {hid : ∀ r, (f r).id = r.id}
    {sourceId : Option Nat} {path : String} (h : RightAt s.rows place)
    (hf : ∀ r ∈ s.rows, r.id = id → (f r).place = r.place ∧ r.place = (sourceId, some path)) :
    RightAt (recomputeIsLatest s (s.update id f hid) sourceId path).rows place := by
  have hflushed : s.Flushed (s.update id f hid) := flushed_update fun r hr heq ↦ (hf r hr heq).1
  by_cases hplace : place = (sourceId, some path)
  · rw [hplace]
    exact rightAt_recompute hflushed
  · rw [rightAt_recompute_of_ne hflushed hplace, rightAt_update_of_ne]
    · exact h
    · exact fun r hr heq ↦ ⟨(hf r hr heq).1, fun hsame ↦ hplace (hsame.symm.trans (hf r hr heq).2)⟩

theorem rightAt_insert_of_ne {columns : Structural} {a l : Bool}
    (hne : (columns.moduleSourceId, columns.path) ≠ place) :
    RightAt (s.insert columns a l).rows place ↔ RightAt s.rows place := by
  refine rightAt_congr fun r hplace ↦ ?_
  rw [Table.insert, mem_append, mem_singleton, or_iff_left]
  rintro rfl
  exact hne hplace

theorem rightAt_retire_of_nothing {decisions : List Decision}
    (h : ∀ r ∈ s.rows, r.place = place → effectOn decisions r.id = .nothing) :
    RightAt (s.retire decisions).rows place ↔ RightAt s.rows place := by
  refine rightAt_congr fun r hplace ↦ ?_
  rw [Table.mem_retire]
  constructor
  · rintro ⟨q, hq, hne, rfl⟩
    have hsame : (if effectOn decisions q.id = .deactivate then q.deactivate else q).place = q.place := by
      split <;> rfl
    have hnothing := h q hq (hsame.symm.trans hplace)
    rwa [hnothing, if_neg PruneEffect.noConfusion]
  · intro hr
    have hnothing := h r hr hplace
    exact ⟨r, hr, by rw [hnothing]; exact PruneEffect.noConfusion, by
      rw [hnothing, if_neg PruneEffect.noConfusion]⟩

theorem touched_of_effect {refs : Nat → Nat} {q : PruneRequest} {sourceId : Nat} (hr : r ∈ s.rows)
    (hsrc : r.moduleSourceId = some sourceId)
    (h : effectOn (modulePlan refs q s sourceId) r.id ≠ .nothing) :
    r.path.getD "" ∈ touchedPaths (modulePlan refs q s sourceId) := by
  have hv : r.toVersion ∈ s.versionsOf sourceId :=
    mem_map_of_mem (mem_filter.mpr ⟨hr, decide_eq_true hsrc⟩)
  rw [modulePlan, show r.id = r.toVersion.id from rfl, effectOn_plan s.ids_versionsOf hv] at h
  refine mem_firstSeen.mpr (mem_map.mpr ⟨_, mem_filter.mpr
    ⟨(mem_plan s.ids_versionsOf).mpr ⟨_, hv, rfl⟩, decisionOf_effect.1 h⟩, ?_⟩)
  rw [row_decisionOf]
  rfl

end

/-! ### When one version is latest -/

/-- The flags are recomputed where rows have changed. -/
def RecomputesRight (s : Table) : CatalogEvent → Prop
  | .importPack first source info modulePath =>
    ∀ e, findExisting first s source info modulePath = some e → e.isBuiltinSsh = false →
      (e.contentSha256 ≠ none → e.isActive = false → e.path = some (orElse e.path modulePath)) ∧
      (e.contentSha256 = none →
        orText info.path e.path = e.path ∧ e.path = some (orElse e.path modulePath))
  | .inactivate _ sourceId discovered =>
    ∀ r ∈ s.rows, r.isStale sourceId discovered = true → r.isLatest = true → r.stalePath ≠ none
  | .prune refs q _ sourceId =>
    q.dryRun = false → ∀ r ∈ s.rows, r.moduleSourceId = some sourceId → r.path = none →
      r.isLatest = true → effectOn (modulePlan refs q s sourceId) r.id = .nothing

section

variable {s t : Table} {r : Row} {place : Option Nat × Option String} {sourceId : Nat}

theorem orElse_of_orElse {a : Option String} {b : String} :
    orElse (some (orElse a b)) b = orElse a b := by
  by_cases h : orElse a b = ""
  · have hb : b = "" := by
      unfold orElse at h
      cases ha : a.filter (· ≠ "") with
      | none => rwa [ha] at h
      | some x =>
        rw [ha] at h
        exact absurd h (of_decide_eq_true (Option.filter_eq_some_iff.mp ha).2)
    rw [h, hb]
    rfl
  · rw [orElse, Option.filter_some, if_pos (decide_eq_true h)]
    rfl

theorem rightAt_import {repr : Value → String} {contentSha : ModuleInfo → String} {first : First}
    {source : ModuleSource} {info : ModuleInfo} {modulePath : String} {outcome : ImportOutcome}
    (h : importPackModule first s source info modulePath repr contentSha = .ok (t, outcome))
    (hmeets : RecomputesRight s (.importPack first source info modulePath))
    (hright : ∀ place, RightAt s.rows place) : RightAt t.rows place := by
  rcases importPackModule_cases h with rfl | ⟨e, he, hb, hsha, ha, rfl⟩ | ⟨e, he, hb, hsha, rfl⟩ | rfl
  · exact hright place
  · refine rightAt_recompute_update (hright place) fun r hr hid ↦ ⟨rfl, ?_⟩
    obtain ⟨hmem, hsrc⟩ := mem_of_findExisting he
    rw [Table.eq_of_id hr hmem hid, Row.place, hsrc, ← (hmeets e he hb).1 hsha ha]
  · refine rightAt_recompute_update (hright place) fun r hr hid ↦ ?_
    obtain ⟨hmem, hsrc⟩ := mem_of_findExisting he
    obtain ⟨hsame, hpath⟩ := (hmeets e he hb).2 hsha
    rw [Table.eq_of_id hr hmem hid, Row.place, Row.place, hsrc, hsame, ← hpath]
    exact ⟨Prod.ext rfl hsame, rfl⟩
  · rw [orElse_of_orElse]
    by_cases hplace : place = (some source.id, some (orElse info.path modulePath))
    · rw [hplace]
      exact rightAt_recompute (Table.flushed_refl _)
    · rw [rightAt_recompute_of_ne (Table.flushed_refl _) hplace, rightAt_insert_of_ne (Ne.symm hplace)]
      exact hright place

theorem flushed_deactivateStale {discovered : List String} :
    s.Flushed (s.deactivateStale sourceId discovered) := by
  intro place r hr
  obtain ⟨q, hq, rfl⟩ := mem_map.mp hr
  have hsame : (if q.isStale sourceId discovered then q.deactivate else q).place = q.place ∧
      (if q.isStale sourceId discovered then q.deactivate else q).id = q.id := by
    split <;> exact ⟨rfl, rfl⟩
  rw [hsame.1, hsame.2]
  exact s.flushed_refl place q hq

theorem Table.Reflagged.flushed {stored : Table} (h : s.Reflagged t) (hs : stored.Flushed s) :
    stored.Flushed t := by
  intro place q hq
  obtain ⟨r, hr, hsame⟩ := h.exists_of_mem hq
  rw [hsame.id, Row.place, hsame.toStructural]
  exact hs place r hr

theorem rightAt_recomputeAll_of_flushed {stored : Table} {paths : List String}
    (hflushed : stored.Flushed s)
    (h : (∃ p ∈ paths, place = (some sourceId, some p)) ∨ RightAt s.rows place) :
    RightAt (paths.foldl (fun t p ↦ recomputeIsLatest stored t (some sourceId) p) s).rows place := by
  induction paths generalizing s with
  | nil => exact h.resolve_left fun ⟨_, hp, _⟩ ↦ absurd hp not_mem_nil
  | cons path paths ih =>
    refine ih (reflagged_recompute.flushed hflushed) ?_
    by_cases hplace : place = (some sourceId, some path)
    · rw [hplace]
      exact Or.inr (rightAt_recompute hflushed)
    · rcases h with ⟨p, hp, rfl⟩ | h
      · rcases mem_cons.mp hp with rfl | hp
        · exact absurd rfl hplace
        · exact Or.inl ⟨p, hp, rfl⟩
      · exact Or.inr ((rightAt_recompute_of_ne hflushed hplace).mpr h)

theorem rightAt_inactivate {pins : List ProjectPin} {discovered : List String}
    (hmeets : RecomputesRight s (.inactivate pins sourceId discovered))
    (hright : RightAt s.rows place) :
    RightAt (inactivateStaleManifestModules s pins sourceId discovered).1.rows place := by
  refine rightAt_recomputeAll_of_flushed flushed_deactivateStale ?_
  refine or_iff_not_imp_left.mpr fun hnot ↦ ?_
  -- what is deactivated at a path that is not recomputed has no flag
  have hunflagged {r : Row} (hr : r ∈ s.rows) (hplace : r.place = place)
      (hstale : r.isStale sourceId discovered = true) : r.isLatest = false := by
    refine Bool.eq_false_iff.mpr fun hlatest ↦ hnot ?_
    have hpath := hmeets r hr hstale hlatest
    obtain ⟨⟨⟨hsrc, -⟩, -⟩, -⟩ : ((r.moduleSourceId = some sourceId ∧ _) ∧ _) ∧ _ := by
      simpa only [Row.isStale, Bool.and_eq_true, decide_eq_true_iff] using hstale
    obtain ⟨p, hp⟩ := Option.ne_none_iff_exists'.mp hpath
    refine ⟨p, mem_dedup.mpr (mem_filterMap.mpr
      ⟨r, mem_filter.mpr ⟨hr, hstale⟩, hp⟩), ?_⟩
    rw [← hplace, Row.place, hsrc, (Option.filter_eq_some_iff.mp hp).1]
  refine rightAt_of_subset hright (fun r hr hplace hlatest ↦ ?_) fun r hr hplace ↦ ?_
  · refine mem_map.mpr ⟨r, hr, if_neg fun hstale ↦ ?_⟩
    exact Bool.false_ne_true ((hunflagged hr hplace hstale).symm.trans hlatest)
  · obtain ⟨q, hq, rfl⟩ := mem_map.mp hr
    by_cases hstale : q.isStale sourceId discovered = true
    · rw [if_pos hstale] at hplace ⊢
      have hlatest : q.isLatest = false := hunflagged hq hplace hstale
      exact Or.inr ⟨rfl, hlatest⟩
    · rw [if_neg hstale]
      exact Or.inl hq

theorem rightAt_pruned {refs : Nat → Nat} {q : PruneRequest}
    (hmeets : ∀ r ∈ s.rows, r.moduleSourceId = some sourceId → r.path = none → r.isLatest = true →
      effectOn (modulePlan refs q s sourceId) r.id = .nothing)
    (hright : RightAt s.rows place) : RightAt (s.pruned refs q sourceId).rows place := by
  refine rightAt_recomputeAll (or_iff_not_imp_left.mpr fun hnot ↦ ?_)
  by_cases hnone : place = (some sourceId, none)
  · -- paths that are NULL are not recomputed, so rows there must have no flag to lose
    have hlatest {r : Row} (hr : r ∈ s.rows) (hplace : r.place = place)
        (heffect : effectOn (modulePlan refs q s sourceId) r.id ≠ .nothing) : r.isLatest = false := by
      rw [hnone] at hplace
      exact Bool.eq_false_iff.mpr fun h ↦
        heffect (hmeets r hr (congrArg Prod.fst hplace) (congrArg Prod.snd hplace) h)
    refine rightAt_of_subset hright (fun r hr hplace hl ↦ ?_) fun r hr hplace ↦ ?_
    · have hnothing : effectOn (modulePlan refs q s sourceId) r.id = .nothing :=
        of_not_not fun h ↦ Bool.false_ne_true ((hlatest hr hplace h).symm.trans hl)
      exact Table.mem_retire.mpr ⟨r, hr, by rw [hnothing]; exact PruneEffect.noConfusion, by
        rw [hnothing, if_neg PruneEffect.noConfusion]⟩
    · obtain ⟨p, hp, hne, rfl⟩ := Table.mem_retire.mp hr
      by_cases hd : effectOn (modulePlan refs q s sourceId) p.id = .deactivate
      · rw [if_pos hd] at hplace ⊢
        have hflag : p.isLatest = false :=
          hlatest hp hplace (by rw [hd]; exact PruneEffect.noConfusion)
        exact Or.inr ⟨rfl, hflag⟩
      · rw [if_neg hd]
        exact Or.inl hp
  · refine (rightAt_retire_of_nothing fun r hr hplace ↦ of_not_not fun heffect ↦ ?_).mpr hright
    have hsrc : r.moduleSourceId = some sourceId := by
      refine of_not_not fun hsrc ↦ heffect ?_
      refine effectOn_plan_of_notMem s.ids_versionsOf fun hmem ↦ hsrc ?_
      rw [Table.versionsOf, map_map] at hmem
      obtain ⟨p, hp, hid⟩ := mem_map.mp hmem
      obtain ⟨hp, hpsrc⟩ := mem_filter.mp hp
      rw [← Table.eq_of_id hp hr hid]
      exact of_decide_eq_true hpsrc
    have htouched := touched_of_effect hr hsrc heffect
    cases hpath : r.path with
    | none => exact hnone (by rw [← hplace, Row.place, hsrc, hpath])
    | some path =>
      rw [hpath] at htouched
      exact hnot ⟨path, htouched, by rw [← hplace, Row.place, hsrc, hpath]⟩

theorem catalogStep_exactlyOneLatest {repr : Value → String} {contentSha : ModuleInfo → String}
    {e : CatalogEvent} (hs : ExactlyOneLatest s) (hmeets : RecomputesRight s e)
    (h : catalogStep repr contentSha s e = some t) : ExactlyOneLatest t := by
  rw [exactlyOneLatest_iff] at hs ⊢
  intro place
  cases e with
  | importPack first source info modulePath =>
    rw [catalogStep] at h
    split at h
    · next t' outcome himport =>
      cases h
      exact rightAt_import himport hmeets hs
    · cases h
      exact hs place
  | inactivate pins sourceId discovered =>
    cases h
    exact rightAt_inactivate hmeets (hs place)
  | prune refs q sources sourceId =>
    rw [catalogStep] at h
    split at h
    · next t' result hprune =>
      cases h
      rcases prune_cases hprune with rfl | ⟨hdry, rfl⟩
      · exact hs place
      · exact rightAt_pruned (hmeets hdry) (hs place)
    · cases h
      exact hs place

end

/-- In a run whose events recompute the flags where rows have changed, every path has its one latest
version in every state, and whatever comes after, no column that a content hash freezes is changed. -/
theorem versions_stay_latest_and_frozen (repr : Value → String) (contentSha : ModuleInfo → String)
    (s t : Table) (es : List CatalogEvent)
    (hrun : Run (catalogStep repr contentSha) RecomputesRight s es t) (hs : ExactlyOneLatest s) :
    ExactlyOneLatest t ∧
      ∀ fs u, Run (catalogStep repr contentSha) Free t fs u →
        ∀ r ∈ t.rows, r.contentSha256 ≠ none → ∀ q ∈ u.rows, q.id = r.id →
          q.toStructural = r.toStructural := by
  refine ⟨hrun.invariant hs fun _ _ _ ha hok hstep ↦ catalogStep_exactlyOneLatest ha hok hstep,
    fun fs u hfree r hr hsha q hq hid ↦ ?_⟩
  have hfrozen : Frozen t u :=
    hfree.relates Frozen.refl fun _ _ _ _ _ hstep hrest ↦ (catalogStep_frozen hstep).trans hrest
  obtain ⟨p, hp, hpid, hsame⟩ := hfrozen.2 q hq (hid ▸ t.fresh r hr)
  rw [Table.eq_of_id hp hr (hpid.trans hid)] at hsame
  exact hsame hsha

def manifest (path version : String) : ModuleInfo where
  name := some "pack"
  category := some "other"
  path := some path
  provider := none
  description := none
  version := some version
  moduleSourceKind := none
  executionEngine := none
  deployModel := none
  engineType := none
  packManifest := .none
  artifactReferences := .none
  inputsMetadata := .none
  variablesSchema := .none
  outputsMetadata := .none
  dependenciesMetadata := .none
  tags := none
  dependencies := none

def emptyTable : Table where
  rows := []
  nextId := 0
  ids := List.nodup_nil
  fresh := fun _ h ↦ absurd h List.not_mem_nil

theorem imported_version_latest :
    ∃ t, catalogStep (fun _ ↦ "") (fun _ ↦ "hash") emptyTable
      (.importPack .oldest ⟨1, "", none, none⟩ (manifest "a" "1") "a") = some t ∧ ExactlyOneLatest t := by
  refine ⟨_, rfl, (versions_stay_latest_and_frozen (fun _ ↦ "") (fun _ ↦ "hash") emptyTable _
    [.importPack .oldest ⟨1, "", none, none⟩ (manifest "a" "1") "a"] (.single ?_ rfl) ?_).1⟩
  · intro e he
    cases he
  · exact exactlyOneLatest_iff.mpr fun _ _ h ↦ absurd h List.not_mem_nil

def beforeHashes : Table where
  rows := [⟨pack (some "old") (some "p") (some "3") none, 1, true, true⟩,
    ⟨pack (some "old") (some "p") (some "2") none, 2, true, false⟩]
  nextId := 3
  ids := by decide
  fresh := by decide

/-- A row that is updated in place takes its flag to its new path, and the old path is left without. -/
theorem flag_leaves_with_path :
    ¬ ∀ (repr : Value → String) (contentSha : ModuleInfo → String) (s t : Table)
      (es : List CatalogEvent), Run (catalogStep repr contentSha) Free s es t → ExactlyOneLatest s →
      ExactlyOneLatest t := by
  intro h
  have hstart : ∀ r ∈ beforeHashes.rows, r.isLatest = true ↔ Newest beforeHashes.rows r := by decide
  have hend := exactlyOneLatest_iff.mp (h (fun _ ↦ "") (fun _ ↦ "hash") beforeHashes _
    [.importPack .oldest ⟨1, "", none, none⟩ (manifest "new" "3") "p"] (.single trivial rfl)
    (exactlyOneLatest_iff.mpr fun _ r hr _ ↦ hstart r hr)) (some 1, some "old")
  revert hend
  decide

end BnkForge.Catalog
