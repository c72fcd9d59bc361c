import BnkForge.Lib.PythonText
import BnkForge.Lib.PythonValue
import Mathlib.Data.Char
import Mathlib.Data.Int.Order.Basic
import Mathlib.Data.List.Lex
import Mathlib.Data.List.MinMax
import Mathlib.Data.List.Nodup
import Mathlib.Data.Prod.Lex

/-!
# The versions in the module catalog

The rows of `module_library` (`backend/models/module.py:24–177`), the order of their versions
(`backend/utils/catalog_versioning.py:34–60`) and `recompute_is_latest`
(`backend/services/module_version_query.py:35–63`).
-/

namespace BnkForge.Catalog

open Python List

/-! ### The order of versions -/

/-- What `version_sort_key` gives: the numbers of the version, 1 for a release and 0 for a
pre-release, and the name of the pre-release. -/
abbrev SortKey : Type := List Int ×ₗ Nat ×ₗ List Char

def numericParts : List (List Char) → List Int
  | [] => []
  | part :: parts =>
    match Python.int (String.ofList part) with
    | some n => n :: numericParts parts
    | none => []

def versionSortKey (version : Option String) : SortKey :=
  match version.filter (· ≠ "") with
  | none => toLex ([], toLex (0, []))
  | some text =>
    let bare := ((strip text.toList).dropWhile fun c ↦ c = 'v' ∨ c = 'V').takeWhile (· ≠ '+')
    let prerelease := (bare.dropWhile (· ≠ '-')).drop 1
    toLex (numericParts ((bare.takeWhile (· ≠ '-')).splitOn '.'),
      toLex (if prerelease.isEmpty then 1 else 0, prerelease))

/-! ### Rows -/

/-- The fields of a row that its content hash freezes, as far as a sync writes them. -/
structure Structural where
  name : String
  category : String
  path : Option String
  provider : Option String
  description : Option String
  gitSource : String
  version : Option String
  moduleSourceKind : Option String
  executionEngine : Option String
  deployModel : Option String
  engineType : Option String
  variablesSchema : Value
  packManifest : Value
  artifactReferences : Value
  dependencies : Value
  dependenciesMetadata : Value
  inputsMetadata : Value
  outputsMetadata : Value
  isOfficial : Bool
  moduleSourceId : Option Nat
  sourcePath : Option String
  sourceVersion : Option String
  tags : Value
  contentSha256 : Option String

def pack (path sourcePath version contentSha : Option String) : Structural where
  name := "pack"
  category := "other"
  path := path
  provider := some "generic"
  description := none
  gitSource := ""
  version := version
  moduleSourceKind := some "git_catalog"
  executionEngine := some "opentofu"
  deployModel := none
  engineType := some "opentofu"
  variablesSchema := .none
  packManifest := .none
  artifactReferences := .none
  dependencies := .none
  dependenciesMetadata := .none
  inputsMetadata := .none
  outputsMetadata := .none
  isOfficial := false
  moduleSourceId := some 1
  sourcePath := sourcePath
  sourceVersion := none
  tags := .none
  contentSha256 := contentSha

/-- A row of `module_library`. -/
structure Row extends Structural where
  id : Nat
  isActive : Bool
  isLatest : Bool

def Row.place (r : Row) : Option Nat × Option String := (r.moduleSourceId, r.path)

def Row.sortKey (r : Row) : SortKey ×ₗ Nat := toLex (versionSortKey r.version, r.id)

def Row.deactivate (r : Row) : Row := { r with isActive := false }

@[ext] structure Table where
  rows : List Row
  nextId : Nat
  ids : (rows.map Row.id).Nodup
  fresh : ∀ r ∈ rows, r.id < nextId

namespace Table

def mapRows (s : Table) (f : Row → Row) (hid : ∀ r, (f r).id = r.id) : Table where
  rows := s.rows.map f
  nextId := s.nextId
  ids := by
    have hcomp : Row.id ∘ f = Row.id := funext hid
    rw [List.map_map, hcomp]
    exact s.ids
  fresh := by
    intro r hr
    obtain ⟨q, hq, rfl⟩ := List.mem_map.mp hr
    rw [hid]
    exact s.fresh q hq

def insert (s : Table) (content : Structural) (isActive isLatest : Bool) : Table where
  rows := s.rows ++ [⟨content, s.nextId, isActive, isLatest⟩]
  nextId := s.nextId + 1
  ids := by
    rw [List.map_append, List.map_singleton, ← List.concat_eq_append, List.nodup_concat]
    refine ⟨fun h ↦ ?_, s.ids⟩
    obtain ⟨r, hr, hid⟩ := List.mem_map.mp h
    exact absurd (s.fresh r hr) (by rw [hid]; exact Nat.lt_irrefl _)
  fresh := by
    intro r hr
    rcases List.mem_append.mp hr with hr | hr
    · exact Nat.lt_succ_of_lt (s.fresh r hr)
    · rw [List.mem_singleton.mp hr]
      exact Nat.lt_succ_self _

def keep (s : Table) (p : Row → Bool) : Table where
  rows := s.rows.filter p
  nextId := s.nextId
  ids := s.ids.sublist (List.filter_sublist.map Row.id)
  fresh := fun r hr ↦ s.fresh r (List.mem_of_mem_filter hr)

def at_ (s : Table) (place : Option Nat × Option String) : List Row :=
  s.rows.filter fun r ↦ r.place = place

end Table

def latest (rows : List Row) : Option Row := (rows.filter Row.isActive).argmax Row.sortKey

/-- The flag of a row that was found says whether it is the newest one. -/
def Row.reflag (found : List Row) (r : Row) : Row :=
  if r.id ∈ found.map Row.id then { r with isLatest := (latest found).any fun l ↦ l.id == r.id } else r

section

variable {found : List Row} {r : Row}

@[simp] theorem Row.id_reflag : (r.reflag found).id = r.id := by
  unfold reflag
  split <;> rfl

@[simp] theorem Row.toStructural_reflag : (r.reflag found).toStructural = r.toStructural := by
  unfold reflag
  split <;> rfl

@[simp] theorem Row.isActive_reflag : (r.reflag found).isActive = r.isActive := by
  unfold reflag
  split <;> rfl

@[simp] theorem Row.place_reflag : (r.reflag found).place = r.place := by
  simp only [Row.place, toStructural_reflag]

@[simp] theorem Row.sortKey_reflag : (r.reflag found).sortKey = r.sortKey := by
  simp only [Row.sortKey, toStructural_reflag, id_reflag]

theorem Row.reflag_of_notMem (h : r.id ∉ found.map Row.id) : r.reflag found = r := if_neg h

end

/-- The rows that a query for a place finds. The session does not flush before a query
(`backend/database.py:43`), so the columns are compared as they are stored; the rows come as the session
has them. -/
def Table.found (stored s : Table) (place : Option Nat × Option String) : List Row :=
  s.rows.filter fun r ↦ stored.rows.any fun q ↦ q.id = r.id ∧ q.place = place

/-- `recompute_is_latest`. -/
def recomputeIsLatest (stored s : Table) (sourceId : Option Nat) (path : String) : Table :=
  s.mapRows (Row.reflag (stored.found s (sourceId, some path))) fun _ ↦ Row.id_reflag

/-! ### What recomputing leaves alone -/

def Row.SameButFlag (r q : Row) : Prop := { r with isLatest := q.isLatest } = q

def Table.Reflagged (s t : Table) : Prop :=
  ∃ f : Row → Row, (∀ r : Row, r.SameButFlag (f r)) ∧ t.nextId = s.nextId ∧ t.rows = s.rows.map f

section

variable {s t u stored : Table} {r q p : Row} {sourceId : Option Nat} {path : String}

theorem Row.SameButFlag.refl (r : Row) : r.SameButFlag r := rfl

theorem Row.SameButFlag.trans (h : r.SameButFlag q) (h' : q.SameButFlag p) : r.SameButFlag p := by
  rw [SameButFlag] at *
  rw [← h', ← h]

theorem Row.SameButFlag.toStructural (h : r.SameButFlag q) : q.toStructural = r.toStructural := by
  rw [← h]

theorem Row.SameButFlag.id (h : r.SameButFlag q) : q.id = r.id := by
  rw [← h]

theorem Row.sameButFlag_reflag {found : List Row} : r.SameButFlag (r.reflag found) := by
  unfold SameButFlag reflag
  split <;> rfl

theorem Table.Reflagged.refl (s : Table) : s.Reflagged s :=
  ⟨id, Row.SameButFlag.refl, rfl, (map_id _).symm⟩

theorem Table.Reflagged.trans (h : s.Reflagged t) (h' : t.Reflagged u) : s.Reflagged u := by
  obtain ⟨f, hf, hid, hrows⟩ := h
  obtain ⟨g, hg, hid', hrows'⟩ := h'
  refine ⟨g ∘ f, fun r ↦ (hf r).trans (hg (f r)), hid'.trans hid, ?_⟩
  rw [hrows', hrows, map_map]

theorem Table.Reflagged.exists_of_mem (h : s.Reflagged t) (hq : q ∈ t.rows) :
    ∃ r ∈ s.rows, r.SameButFlag q := by
  obtain ⟨f, hf, -, hrows⟩ := h
  rw [hrows] at hq
  obtain ⟨r, hr, rfl⟩ := mem_map.mp hq
  exact ⟨r, hr, hf r⟩

theorem Table.Reflagged.exists_of_mem_left (h : s.Reflagged t) (hr : r ∈ s.rows) :
    ∃ q ∈ t.rows, r.SameButFlag q := by
  obtain ⟨f, hf, -, hrows⟩ := h
  exact ⟨f r, hrows ▸ mem_map_of_mem hr, hf r⟩

theorem reflagged_recompute : s.Reflagged (recomputeIsLatest stored s sourceId path) :=
  ⟨_, fun _ ↦ Row.sameButFlag_reflag, rfl, rfl⟩

theorem reflagged_recomputeAll {paths : List String}
    {f : Table → Table} (h : s.Reflagged t) :
    s.Reflagged (paths.foldl (fun t path ↦ recomputeIsLatest (f t) t sourceId path) t) := by
  induction paths generalizing t with
  | nil => exact h
  | cons path paths ih => exact ih (h.trans reflagged_recompute)

end

/-! ### Where the flags are right -/

def Newest (rows : List Row) (r : Row) : Prop :=
  r.isActive = true ∧ ∀ q ∈ rows, q.place = r.place → q.isActive = true → q.sortKey ≤ r.sortKey

def RightAt (rows : List Row) (place : Option Nat × Option String) : Prop :=
  ∀ r ∈ rows, r.place = place → (r.isLatest = true ↔ Newest rows r)

instance decidableNewest (rows : List Row) (r : Row) : Decidable (Newest rows r) :=
  inferInstanceAs (Decidable (_ ∧ _))

instance decidableRightAt (rows : List Row) (place : Option Nat × Option String) :
    Decidable (RightAt rows place) :=
  inferInstanceAs (Decidable (∀ r ∈ rows, r.place = place → (r.isLatest = true ↔ Newest rows r)))

section

variable {s : Table} {rows rows' : List Row} {r m : Row} {place : Option Nat × Option String}
  {sourceId : Option Nat} {path : String}

theorem Table.eq_of_id (hr : r ∈ s.rows) (hm : m ∈ s.rows) (hid : r.id = m.id) : r = m :=
  inj_on_of_nodup_map s.ids hr hm hid

theorem Table.mem_at : r ∈ s.at_ place ↔ r ∈ s.rows ∧ r.place = place := by
  rw [at_, mem_filter, decide_eq_true_iff]

theorem Table.found_eq {stored : Table}
    (h : ∀ r ∈ s.rows, (∃ q ∈ stored.rows, q.id = r.id ∧ q.place = place) ↔ r.place = place) :
    stored.found s place = s.at_ place := by
  refine filter_congr fun r hr ↦ ?_
  rw [Bool.eq_iff_iff, any_eq_true]
  simpa only [decide_eq_true_iff] using h r hr

theorem latest_at_iff (hr : r ∈ s.rows) :
    (latest (s.at_ r.place)).any (fun l ↦ l.id == r.id) = true ↔ Newest s.rows r := by
  have hactive {q : Row} (hq : q ∈ s.rows) (hplace : q.place = r.place) (ha : q.isActive = true) :
      q ∈ (s.at_ r.place).filter Row.isActive :=
    mem_filter.mpr ⟨Table.mem_at.mpr ⟨hq, hplace⟩, ha⟩
  rw [Option.any_eq_true]
  constructor
  · rintro ⟨l, hl, hid⟩
    obtain ⟨hmem, ha⟩ := mem_filter.mp (argmax_mem hl)
    obtain rfl := Table.eq_of_id (Table.mem_at.mp hmem).1 hr (eq_of_beq hid)
    exact ⟨ha, fun q hq hplace hqa ↦ le_of_mem_argmax (hactive hq hplace hqa) hl⟩
  · rintro ⟨ha, hmax⟩
    have hself := hactive hr rfl ha
    cases hl : latest (s.at_ r.place) with
    | none =>
      rw [argmax_eq_none.mp hl] at hself
      cases hself
    | some l =>
      refine ⟨l, rfl, beq_iff_eq.mpr ?_⟩
      obtain ⟨hmem, hla⟩ := mem_filter.mp (argmax_mem hl)
      obtain ⟨hls, hplace⟩ := Table.mem_at.mp hmem
      have hle := hmax l hls hplace hla
      have hge : r.sortKey ≤ l.sortKey := le_of_mem_argmax hself hl
      exact congrArg (fun k ↦ (ofLex k).2) (le_antisymm hle hge)

theorem Table.id_mem_at (hr : r ∈ s.rows) :
    r.id ∈ (s.at_ place).map Row.id ↔ r.place = place := by
  rw [mem_map]
  constructor
  · rintro ⟨q, hq, hid⟩
    obtain ⟨hqs, hplace⟩ := mem_at.mp hq
    exact eq_of_id hqs hr hid ▸ hplace
  · exact fun hplace ↦ ⟨r, mem_at.mpr ⟨hr, hplace⟩, rfl⟩

theorem rightAt_congr (h : ∀ r : Row, r.place = place → (r ∈ rows ↔ r ∈ rows')) :
    RightAt rows place ↔ RightAt rows' place := by
  have hnewest {r : Row} (hplace : r.place = place) : Newest rows r ↔ Newest rows' r :=
    and_congr_right fun _ ↦ forall_congr' fun q ↦ ⟨
      fun hq hmem hsame ↦ hq ((h q (hsame.trans hplace)).mpr hmem) hsame,
      fun hq hmem hsame ↦ hq ((h q (hsame.trans hplace)).mp hmem) hsame⟩
  exact forall_congr' fun r ↦ ⟨
    fun hr hmem hplace ↦ (hr ((h r hplace).mpr hmem) hplace).trans (hnewest hplace),
    fun hr hmem hplace ↦ (hr ((h r hplace).mp hmem) hplace).trans (hnewest hplace).symm⟩

theorem newest_map {f : Row → Row} (hplace : ∀ r, (f r).place = r.place)
    (hactive : ∀ r, (f r).isActive = r.isActive) (hkey : ∀ r, (f r).sortKey = r.sortKey) :
    Newest (rows.map f) (f r) ↔ Newest rows r := by
  simp only [Newest, forall_mem_map, hplace, hactive, hkey]

def Table.Flushed (stored s : Table) : Prop :=
  ∀ place, ∀ r ∈ s.rows, (∃ q ∈ stored.rows, q.id = r.id ∧ q.place = place) ↔ r.place = place

theorem Table.flushed_refl (s : Table) : s.Flushed s :=
  fun _ r hr ↦ ⟨fun ⟨_, hq, hid, hplace⟩ ↦ eq_of_id hq hr hid ▸ hplace,
    fun hplace ↦ ⟨r, hr, rfl, hplace⟩⟩

theorem rightAt_recompute {stored : Table} (h : stored.Flushed s) :
    RightAt (recomputeIsLatest stored s sourceId path).rows (sourceId, some path) := by
  intro r hr hplace
  obtain ⟨q, hq, rfl⟩ := mem_map.mp hr
  rw [Row.place_reflag] at hplace
  rw [recomputeIsLatest, Table.mapRows, newest_map (fun _ ↦ Row.place_reflag)
    (fun _ ↦ Row.isActive_reflag) (fun _ ↦ Row.sortKey_reflag), Row.reflag, Table.found_eq (h _),
    if_pos ((Table.id_mem_at hq).mpr hplace), ← hplace]
  exact latest_at_iff hq

theorem rightAt_recompute_of_ne {stored : Table} (h : stored.Flushed s)
    (hne : place ≠ (sourceId, some path)) :
    RightAt (recomputeIsLatest stored s sourceId path).rows place ↔ RightAt s.rows place := by
  have hkeep {q : Row} (hq : q ∈ s.rows) (hplace : q.place = place) :
      q.reflag (stored.found s (sourceId, some path)) = q := by
    refine Row.reflag_of_notMem ?_
    rw [Table.found_eq (h _), Table.id_mem_at hq, hplace]
    exact hne
  refine rightAt_congr fun r hplace ↦ ?_
  constructor
  · intro hr
    obtain ⟨q, hq, rfl⟩ := mem_map.mp hr
    rw [Row.place_reflag] at hplace
    rwa [hkeep hq hplace]
  · exact fun hr ↦ mem_map.mpr ⟨r, hr, hkeep hr hplace⟩

theorem rightAt_recomputeAll {paths : List String}
    (h : (∃ p ∈ paths, place = (sourceId, some p)) ∨ RightAt s.rows place) :
    RightAt (paths.foldl (fun t p ↦ recomputeIsLatest t t sourceId p) s).rows place := by
  induction paths generalizing s with
  | nil => exact h.resolve_left fun ⟨_, hp, _⟩ ↦ absurd hp not_mem_nil
  | cons path paths ih =>
    refine ih ?_
    by_cases hplace : place = (sourceId, some path)
    · rw [hplace]
      exact Or.inr (rightAt_recompute s.flushed_refl)
    · rcases h with ⟨p, hp, rfl⟩ | h
      · rcases mem_cons.mp hp with rfl | hp
        · exact absurd rfl hplace
        · exact Or.inl ⟨p, hp, rfl⟩
      · exact Or.inr ((rightAt_recompute_of_ne s.flushed_refl hplace).mpr h)

theorem recompute_eq_self (h : RightAt s.rows (sourceId, some path)) :
    recomputeIsLatest s s sourceId path = s := by
  refine Table.ext ((map_congr_left fun r hr ↦ ?_).trans (map_id _)) rfl
  rw [Table.found_eq (s.flushed_refl _), id]
  by_cases hplace : r.place = (sourceId, some path)
  · have hflag := (latest_at_iff hr).trans (h r hr hplace).symm
    rw [hplace, ← Bool.eq_iff_iff] at hflag
    rw [Row.reflag, if_pos ((Table.id_mem_at hr).mpr hplace), hflag]
  · exact Row.reflag_of_notMem fun hmem ↦ hplace ((Table.id_mem_at hr).mp hmem)

theorem recomputeAll_eq_self {paths : List String}
    (h : ∀ p ∈ paths, RightAt s.rows (sourceId, some p)) :
    paths.foldl (fun t p ↦ recomputeIsLatest t t sourceId p) s = s := by
  induction paths with
  | nil => rfl
  | cons path paths ih =>
    rw [foldl_cons, recompute_eq_self (h path mem_cons_self)]
    exact ih fun p hp ↦ h p (mem_cons_of_mem _ hp)

end

end BnkForge.Catalog
