import BnkForge.Fleet.Selector
import BnkForge.Lib.PythonInt
import Mathlib.Data.List.Sort
import Mathlib.Data.List.Dedup

/-!
# Waves of a bulk run

`_group_members_into_waves` (`backend/services/fleet_bulkop_service.py:115–157`): the members of a
decision are put into waves by their fault domain or by a label. The executor groups them at the
start of a run and again at every resume, from the rows as they are then.
-/

namespace BnkForge.Fleet

open List

/-- `text.strip()`. -/
def stripText (text : String) : String := String.ofList (Python.strip text.toList)

/-- What a member is put into a wave by, empty where it has no such value. -/
def waveKey (waveBy : WaveBy) (m : FleetMember) : String :=
  match waveBy with
  | .faultDomain => stripText (m.faultDomain.getD "")
  | .label key => stripText ((m.label key).getD "")

def waveKeys (members : List FleetMember) (waveBy : WaveBy) : List String :=
  let keys := members.map (waveKey waveBy)
  (keys.filter (· != "")).dedup.insertionSort (· ≤ ·) ++ if keys.contains "" then [""] else []

/-- `_group_members_into_waves`: a bucket label and the members of the wave, each. -/
def groupMembersIntoWaves (members : List FleetMember) (waveBy : WaveBy) :
    List (String × List FleetMember) :=
  (waveKeys members waveBy).map fun key ↦
    (if key = "" then "(none)" else key, members.filter fun m ↦ waveKey waveBy m == key)

/-- The rows of the given ids that exist, in the order of the ids. -/
def fetchMembers (db : Db) (memberIds : List Nat) : List FleetMember :=
  memberIds.filterMap fun id ↦ db.members.find? (·.id == id)

/-- The waves of a run as member ids. No member is in two of them. -/
structure Plan where
  waves : List (List Nat)
  disjoint : waves.Pairwise List.Disjoint
  deriving DecidableEq

section Grouping

variable {db : Db} {members : List FleetMember} {waveBy : WaveBy} {memberIds : List Nat}

theorem nodup_waveKeys : (waveKeys members waveBy).Nodup := by
  unfold waveKeys
  rw [nodup_append]
  refine ⟨(perm_insertionSort _ _).nodup_iff.mpr (nodup_dedup _), ?_, ?_⟩
  · split
    · exact nodup_singleton _
    · exact nodup_nil
  · intro a ha b hb hab
    rw [(perm_insertionSort _ _).mem_iff, mem_dedup, mem_filter] at ha
    split at hb
    · rw [hab, mem_singleton.mp hb] at ha
      exact absurd ha.2 (by decide)
    · exact not_mem_nil hb

theorem mem_waveKeys {m : FleetMember} (hm : m ∈ members) :
    waveKey waveBy m ∈ waveKeys members waveBy := by
  have hkey := mem_map_of_mem (f := waveKey waveBy) hm
  unfold waveKeys
  rw [mem_append]
  by_cases hempty : waveKey waveBy m = ""
  · refine Or.inr ?_
    rw [if_pos (contains_iff_mem.mpr (hempty ▸ hkey)), hempty]
    exact mem_singleton.mpr rfl
  · refine Or.inl ?_
    rw [(perm_insertionSort _ _).mem_iff, mem_dedup, mem_filter]
    exact ⟨hkey, by simpa using hempty⟩

def waveIds (members : List FleetMember) (waveBy : WaveBy) : List (List Nat) :=
  (groupMembersIntoWaves members waveBy).map fun wave ↦ wave.2.map FleetMember.id

theorem waveIds_eq :
    waveIds members waveBy = (waveKeys members waveBy).map fun key ↦
      (members.filter fun m ↦ waveKey waveBy m == key).map FleetMember.id := by
  rw [waveIds, groupMembersIntoWaves, map_map]
  rfl

theorem pairwise_disjoint_waveIds
    (hid : ∀ a ∈ members, ∀ b ∈ members, a.id = b.id → a = b) :
    (waveIds members waveBy).Pairwise List.Disjoint := by
  rw [waveIds_eq, pairwise_map]
  refine nodup_waveKeys.imp fun {k k'} hne id h h' ↦ hne ?_
  obtain ⟨a, ha, rfl⟩ := mem_map.mp h
  obtain ⟨b, hb, hba⟩ := mem_map.mp h'
  obtain ⟨ha, hk⟩ := mem_filter.mp ha
  obtain ⟨hb, hk'⟩ := mem_filter.mp hb
  cases hid b hb a ha hba
  exact (eq_of_beq hk).symm.trans (eq_of_beq hk')

theorem mem_flatten_waveIds {id : Nat} :
    id ∈ (waveIds members waveBy).flatten ↔ id ∈ members.map FleetMember.id := by
  rw [waveIds_eq]
  simp only [mem_flatten, mem_map]
  constructor
  · rintro ⟨_, ⟨key, _, rfl⟩, hid⟩
    obtain ⟨m, hm, rfl⟩ := mem_map.mp hid
    exact ⟨m, (mem_filter.mp hm).1, rfl⟩
  · rintro ⟨m, hm, rfl⟩
    refine ⟨_, ⟨waveKey waveBy m, mem_waveKeys hm, rfl⟩, ?_⟩
    exact mem_map_of_mem (mem_filter.mpr ⟨hm, beq_self_eq_true _⟩)

theorem mem_fetchMembers {m : FleetMember} :
    m ∈ fetchMembers db memberIds ↔ m ∈ db.members ∧ m.id ∈ memberIds := by
  unfold fetchMembers
  rw [mem_filterMap]
  constructor
  · rintro ⟨id, hid, hfind⟩
    have heq : m.id = id := by simpa using find?_some hfind
    exact ⟨mem_of_find?_eq_some hfind, heq ▸ hid⟩
  · rintro ⟨hm, hid⟩
    refine ⟨m.id, hid, ?_⟩
    cases hfind : db.members.find? (·.id == m.id) with
    | none => exact absurd (beq_self_eq_true _) (find?_eq_none.mp hfind m hm)
    | some x =>
      have heq : x.id = m.id := by simpa using find?_some hfind
      rw [db.eq_of_id (mem_of_find?_eq_some hfind) hm heq]

/-- The plan of the executor over the members of a decision that exist. -/
def planWaves (db : Db) (waveBy : WaveBy) (memberIds : List Nat) : Plan :=
  ⟨waveIds (fetchMembers db memberIds) waveBy,
    pairwise_disjoint_waveIds fun _ ha _ hb ↦
      db.eq_of_id (mem_fetchMembers.mp ha).1 (mem_fetchMembers.mp hb).1⟩

theorem mem_planWaves {id : Nat} :
    id ∈ (planWaves db waveBy memberIds).waves.flatten ↔
      id ∈ memberIds ∧ ∃ m ∈ db.members, m.id = id := by
  rw [planWaves, mem_flatten_waveIds, mem_map]
  simp only [mem_fetchMembers]
  constructor
  · rintro ⟨m, ⟨hm, hid⟩, rfl⟩
    exact ⟨hid, m, hm, rfl⟩
  · rintro ⟨hid, m, hm, rfl⟩
    exact ⟨m, ⟨hm, hid⟩, rfl⟩

end Grouping

end BnkForge.Fleet
