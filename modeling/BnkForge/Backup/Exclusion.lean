import BnkForge.Lib.Transition
import Mathlib.Data.List.Count
import Mathlib.Logic.Function.Basic

/-!
# Backups and restores side by side

The calls of `create_backup` (`backend/services/backup_service.py:54–127`) and `restore_backup`
(`:589–758`) in several workers, with the maintenance flag in Redis
(`backend/core/maintenance.py:29–82`). A step is what one call does between two things that the others
can see. The name of an archive is the second at which it is opened; the route deletes an archive
that has been sent (`backend/routes/system.py:663–675`).
-/

namespace BnkForge.Backup

open Transition List

/-! ### The state -/

/-- Where a call of `create_backup` stands. -/
inductive CreatePhase
  /-- It has been let in, and `pg_dump` runs. -/
  | dumping
  | wrapping
  | describing
  | naming
  /-- The archive is open, and so many members have been added. -/
  | packing (members : Nat)
  /-- The path of the archive has been returned. -/
  | returned
  /-- The archive has been sent and deleted. -/
  | deleted
  /-- The call was refused, has raised, or was stopped. -/
  | ended
  deriving DecidableEq, Repr

def CreatePhase.underWay : CreatePhase → Bool
  | dumping | wrapping | describing | naming | packing _ => true
  | returned | deleted | ended => false

/-- The call writes the archive, or its caller reads it. -/
def CreatePhase.usesArchive : CreatePhase → Bool
  | packing _ | returned => true
  | _ => false

/-- A call of `create_backup`, with the name of its archive and the file that it has open. Whether a
restore was under way at the same time is recorded. -/
structure Create where
  phase : CreatePhase
  metRestore : Bool := false
  second : Nat := 0
  handle : Nat := 0
  deriving DecidableEq, Repr

/-- Where a call of `restore_backup` stands. -/
inductive RestorePhase
  /-- It has been let in, and validates the archive. -/
  | checked
  /-- The flag is set. -/
  | flagged
  /-- The database is dropped. -/
  | replacing
  /-- The database is back, and the cache is cleared. -/
  | cleared
  /-- The key is replaced. -/
  | replaced
  | ended
  deriving DecidableEq, Repr

def RestorePhase.underWay : RestorePhase → Bool
  | ended => false
  | _ => true

/-- The database has been dropped, and the key is still to be replaced. -/
def RestorePhase.between : RestorePhase → Bool
  | replacing | cleared => true
  | _ => false

structure ArchiveFile where
  wrappedKey : Option Nat := none
  metadata : Option Nat := none
  dump : Option Nat := none
  deriving DecidableEq, Repr

/-- Member number `n` is written by call `c`. -/
def ArchiveFile.add (c n : Nat) (f : ArchiveFile) : ArchiveFile :=
  match n with
  | 0 => { f with wrappedKey := some c }
  | 1 => { f with metadata := some c }
  | _ => { f with dump := some c }

/-- An archive with the first `n` members of call `c`. -/
def ArchiveFile.upTo (c n : Nat) : ArchiveFile :=
  (List.range n).foldl (fun f k ↦ f.add c k) {}

/-- The maintenance flag, the calls in the order in which they began, the files, and which of them has
which name. -/
structure Workers where
  flag : Bool := false
  creates : List Create := []
  restores : List RestorePhase := []
  files : List ArchiveFile := []
  paths : Nat → Option Nat := fun _ ↦ none

def Workers.restoring (s : Workers) : Bool := s.restores.any RestorePhase.underWay

def Workers.creating (s : Workers) : Bool := s.creates.any fun c ↦ c.phase.underWay

/-! ### The steps -/

/-- What happens next. The argument `reachable` says that Redis answers. -/
inductive Event
  /-- `create_backup` is called. -/
  | create (reachable : Bool)
  /-- The next of the dump, the wrapped key and the metadata is written to the call's own directory. -/
  | write (c : Nat)
  | openArchive (c second : Nat)
  | addMember (c : Nat)
  | giveBack (c : Nat)
  | failCreate (c : Nat)
  | deleteArchive (c : Nat)
  /-- `restore_backup` is called. -/
  | restore (reachable : Bool)
  | setMaintenance (r : Nat)
  | dropDatabase (r : Nat)
  /-- `cache.clear_all` may empty the Redis database that the flag is in. -/
  | clearCache (r : Nat) (flushed : Bool)
  | replaceKey (r : Nat)
  | finish (r : Nat)
  /-- A step of the restore raises; what is done about it may fail as well. -/
  | failRestore (r : Nat) (reachable : Bool)
  | stopRestore (r : Nat)
  /-- The time to live of the flag is over. -/
  | expire
  deriving DecidableEq, Repr

/-- The call goes to the next phase. -/
def Workers.setCreate (s : Workers) (c : Nat) (create : Create) : Workers :=
  { s with creates := s.creates.set c create }

def Workers.setRestore (s : Workers) (r : Nat) (phase : RestorePhase) : Workers :=
  { s with restores := s.restores.set r phase }

/-- A call of `create_backup` begins. -/
def Workers.beginCreate (s : Workers) (reachable : Bool) : Workers :=
  if reachable && s.flag then { s with creates := s.creates ++ [{ phase := .ended }] }
  else { s with creates := s.creates ++ [{ phase := .dumping, metRestore := s.restoring }] }

/-- A call of `restore_backup` begins. -/
def Workers.beginRestore (s : Workers) (reachable : Bool) : Workers :=
  if reachable && s.flag then { s with restores := s.restores ++ [.ended] }
  else
    { s with
      restores := s.restores ++ [.checked]
      creates := s.creates.map fun c ↦
        { c with metRestore := c.metRestore || c.phase.underWay } }

/-- The archive is opened to write: an old file of its name is emptied. -/
def Workers.openFile (s : Workers) (c : Nat) (create : Create) (second : Nat) : Workers :=
  match s.paths second with
  | some file =>
    { s.setCreate c { create with phase := .packing 0, second := second, handle := file } with
      files := s.files.set file {} }
  | none =>
    { s.setCreate c { create with phase := .packing 0, second := second, handle := s.files.length } with
      files := s.files ++ [{}]
      paths := Function.update s.paths second (some s.files.length) }

def CreatePhase.afterWrite : CreatePhase → Option CreatePhase
  | dumping => some wrapping
  | wrapping => some describing
  | describing => some naming
  | _ => none

/-- What a call of `create_backup` does. -/
def Workers.stepCreate (s : Workers) (c : Nat) (create : Create) : Event → Option Workers
  | .write _ => create.phase.afterWrite.map fun phase ↦ s.setCreate c { create with phase := phase }
  | .openArchive _ second =>
    if create.phase = .naming then some (s.openFile c create second) else none
  | .addMember _ =>
    match create.phase with
    | .packing n =>
      if n < 3 then
        some { s.setCreate c { create with phase := .packing (n + 1) } with
          files := s.files.modify create.handle (ArchiveFile.add c n) }
      else none
    | _ => none
  | .giveBack _ =>
    if create.phase = .packing 3 then some (s.setCreate c { create with phase := .returned }) else none
  | .failCreate _ =>
    if create.phase.underWay then some (s.setCreate c { create with phase := .ended }) else none
  | .deleteArchive _ =>
    if create.phase = .returned then
      some { s.setCreate c { create with phase := .deleted } with
        paths := Function.update s.paths create.second none }
    else none
  | _ => none

/-- What a call of `restore_backup` does. Where it fails behind `set_maintenance_mode`, the flag is
cleared, whoever has set it. -/
def Workers.stepRestore (s : Workers) (r : Nat) (phase : RestorePhase) : Event → Option Workers
  | .setMaintenance _ =>
    if phase = .checked then some { s.setRestore r .flagged with flag := true } else none
  | .dropDatabase _ => if phase = .flagged then some (s.setRestore r .replacing) else none
  | .clearCache _ flushed =>
    if phase = .replacing then some { s.setRestore r .cleared with flag := s.flag && !flushed }
    else none
  | .replaceKey _ => if phase = .cleared then some (s.setRestore r .replaced) else none
  | .finish _ =>
    if phase = .replaced then some { s.setRestore r .ended with flag := false } else none
  | .failRestore _ reachable =>
    match phase with
    | .ended => none
    | .checked => some (s.setRestore r .ended)
    | _ => some { s.setRestore r .ended with flag := s.flag && !reachable }
  | .stopRestore _ => if phase.underWay then some (s.setRestore r .ended) else none
  | _ => none

def workersStep (s : Workers) (e : Event) : Option Workers :=
  match e with
  | .create reachable => some (s.beginCreate reachable)
  | .restore reachable => some (s.beginRestore reachable)
  | .expire => some { s with flag := false }
  | .write c | .openArchive c _ | .addMember c | .giveBack c | .failCreate c | .deleteArchive c =>
    s.creates[c]?.bind fun create ↦ s.stepCreate c create e
  | .setMaintenance r | .dropDatabase r | .clearCache r _ | .replaceKey r | .finish r
  | .failRestore r _ | .stopRestore r => s.restores[r]?.bind fun phase ↦ s.stepRestore r phase e

/-! ### Exclusion -/

/-- The archive that has the name under which a call has opened its own. -/
def Workers.archiveOf (s : Workers) (create : Create) : Option ArchiveFile :=
  (s.paths create.second).bind fun file ↦ s.files[file]?

/-- At most one restore is between the dropping of the database and the replacing of the key; a backup
that has returned an archive has met no restore; and the archive at the path that it has returned is
its own. -/
structure Workers.Exclusive (s : Workers) : Prop where
  restores : s.restores.countP RestorePhase.between ≤ 1
  apart : ∀ create ∈ s.creates, create.phase = .returned ∨ create.phase = .deleted →
    create.metRestore = false
  own : ∀ c create, s.creates[c]? = some create → create.phase = .returned →
    s.archiveOf create = some (ArchiveFile.upTo c 3)

/-- A call passes the maintenance check only while no restore is under way, and one of
`restore_backup` only while no backup is; and an archive is opened under a name that no other call
uses. -/
def Alone (s : Workers) : Event → Prop
  | .create reachable => (reachable && s.flag) = true ∨ s.restoring = false
  | .restore reachable => (reachable && s.flag) = true ∨ s.restoring = false ∧ s.creating = false
  | .openArchive _ second => ∀ create ∈ s.creates, create.phase.usesArchive = true →
      create.second ≠ second
  | _ => True

/-- So many members of its archive a call has added. -/
def CreatePhase.members : CreatePhase → Nat
  | packing n => n
  | returned => 3
  | _ => 0

/-- The names of files are theirs alone, and a call that uses an archive has its name and has written
all that is in it. -/
structure ArchivesKept (creates : List Create) (files : List ArchiveFile) (paths : Nat → Option Nat) :
    Prop where
  injective : ∀ p q file, paths p = some file → paths q = some file → p = q
  named : ∀ p file, paths p = some file → file < files.length
  distinct : ∀ (c d : Nat) (x y : Create), creates[c]? = some x → creates[d]? = some y →
    x.phase.usesArchive = true → y.phase.usesArchive = true → x.second = y.second → c = d
  holds : ∀ (c : Nat) (x : Create), creates[c]? = some x → x.phase.usesArchive = true →
    paths x.second = some x.handle ∧ files[x.handle]? = some (ArchiveFile.upTo c x.phase.members)

section

variable {s t : Workers} {c second : Nat} {create x : Create} {creates : List Create}
  {files : List ArchiveFile} {paths : Nat → Option Nat}

private theorem of_enabled {p : Prop} [Decidable p] (h : (if p then some s else none) = some t) :
    p ∧ s = t := by
  obtain ⟨hp, hst⟩ := Option.ite_none_right_eq_some.mp h
  exact ⟨hp, Option.some.inj hst⟩

private theorem get_set {i j : Nat} {a b : Create} (h : (creates.set i a)[j]? = some b) :
    j = i ∧ b = a ∨ j ≠ i ∧ creates[j]? = some b := by
  rw [getElem?_set] at h
  split at h
  · next hij =>
    split at h
    · exact Or.inl ⟨hij.symm, (Option.some.inj h).symm⟩
    · cases h
  · next hij => exact Or.inr ⟨fun hji ↦ hij hji.symm, h⟩

theorem ArchivesKept.set {files' : List ArchiveFile} {paths' : Nat → Option Nat}
    (h : ArchivesKept creates files paths)
    (hinjective : ∀ p q file, paths' p = some file → paths' q = some file → p = q)
    (hnamed : ∀ p file, paths' p = some file → file < files'.length)
    (hx : x.phase.usesArchive = true → paths' x.second = some x.handle ∧
      files'[x.handle]? = some (ArchiveFile.upTo c x.phase.members))
    (hothers : ∀ (d : Nat) (y : Create), d ≠ c → creates[d]? = some y →
      y.phase.usesArchive = true → (x.phase.usesArchive = true → x.second ≠ y.second) ∧
        paths' y.second = paths y.second ∧ files'[y.handle]? = files[y.handle]?) :
    ArchivesKept (creates.set c x) files' paths' := by
  refine ⟨hinjective, hnamed, fun i j y z hi hj hy hz hsecond ↦ ?_, fun i y hi hy ↦ ?_⟩
  · obtain ⟨hic, hyx⟩ | ⟨hne, hi'⟩ := get_set hi
    · obtain ⟨hjc, -⟩ | ⟨hne', hj'⟩ := get_set hj
      · exact hic.trans hjc.symm
      · subst hyx
        exact absurd hsecond ((hothers j z hne' hj' hz).1 hy)
    · obtain ⟨-, hzx⟩ | ⟨hne', hj'⟩ := get_set hj
      · subst hzx
        exact absurd hsecond.symm ((hothers i y hne hi' hy).1 hz)
      · exact h.distinct i j y z hi' hj' hy hz hsecond
  · obtain ⟨rfl, rfl⟩ | ⟨hne, hi'⟩ := get_set hi
    · exact hx hy
    · obtain ⟨-, hpath, hfile⟩ := hothers i y hne hi' hy
      rw [hpath, hfile]
      exact h.holds i y hi' hy

theorem ArchivesKept.set_phase {phase : CreatePhase} (h : ArchivesKept creates files paths)
    (hc : creates[c]? = some create)
    (hphase : phase.usesArchive = true →
      create.phase.usesArchive = true ∧ phase.members = create.phase.members) :
    ArchivesKept (creates.set c { create with phase := phase }) files paths := by
  refine h.set h.injective h.named (fun huses ↦ ?_) fun d y hne hy huses ↦ ⟨fun hx hsecond ↦ ?_, rfl, rfl⟩
  · obtain ⟨hused, hmembers⟩ := hphase huses
    rw [hmembers]
    exact h.holds c create hc hused
  · exact hne (h.distinct d c y create hy hc huses (hphase hx).1 hsecond.symm)

theorem ArchivesKept.add {n : Nat} (h : ArchivesKept creates files paths)
    (hc : creates[c]? = some create) (hphase : create.phase = .packing n) :
    ArchivesKept (creates.set c { create with phase := .packing (n + 1) })
      (files.modify create.handle (ArchiveFile.add c n)) paths := by
  have huses : create.phase.usesArchive = true := by rw [hphase]; rfl
  obtain ⟨hpath, hfile⟩ := h.holds c create hc huses
  rw [hphase] at hfile
  refine h.set h.injective (fun p file hp ↦ ?_) (fun _ ↦ ⟨hpath, ?_⟩) fun d y hne hy hyuses ↦ ?_
  · rw [length_modify]
    exact h.named p file hp
  · rw [getElem?_modify_eq, hfile]
    simp [ArchiveFile.upTo, CreatePhase.members, range_succ]
  · have hsecond : create.second ≠ y.second := fun hsecond ↦
      hne (h.distinct d c y create hy hc hyuses huses hsecond.symm)
    have hhandle : create.handle ≠ y.handle := fun heq ↦
      hsecond (h.injective _ _ _ hpath (heq ▸ (h.holds d y hy hyuses).1))
    exact ⟨fun _ ↦ hsecond, rfl, getElem?_modify_ne _ _ hhandle⟩

theorem Workers.archivesKept_openFile (h : ArchivesKept s.creates s.files s.paths)
    (hfree : ∀ y ∈ s.creates, y.phase.usesArchive = true → y.second ≠ second) :
    ArchivesKept (s.openFile c create second).creates (s.openFile c create second).files
      (s.openFile c create second).paths := by
  have hother {d : Nat} {y : Create} (hy : s.creates[d]? = some y) (huses : y.phase.usesArchive = true) :
      second ≠ y.second := fun hsecond ↦ hfree y (mem_of_getElem? hy) huses hsecond.symm
  unfold openFile
  cases hpath : s.paths second with
  | some file =>
    refine h.set h.injective (fun p k hp ↦ ?_) (fun _ ↦ ⟨hpath, ?_⟩) fun d y _ hy huses ↦
      ⟨fun _ ↦ hother hy huses, rfl, getElem?_set_ne fun heq ↦ hother hy huses ?_⟩
    · rw [length_set]
      exact h.named p k hp
    · exact getElem?_set_self (h.named _ _ hpath)
    · exact h.injective _ _ _ hpath (heq ▸ (h.holds d y hy huses).1)
  | none =>
    have hold {p k : Nat} (hp : Function.update s.paths second (some s.files.length) p = some k) :
        p = second ∧ k = s.files.length ∨ p ≠ second ∧ s.paths p = some k := by
      by_cases hps : p = second
      · rw [hps, Function.update_self] at hp
        exact Or.inl ⟨hps, (Option.some.inj hp).symm⟩
      · rw [Function.update_of_ne hps] at hp
        exact Or.inr ⟨hps, hp⟩
    refine h.set (fun p q k hp hq ↦ ?_) (fun p k hp ↦ ?_) (fun _ ↦ ⟨Function.update_self .., ?_⟩)
      fun d y _ hy huses ↦ ⟨fun _ ↦ hother hy huses, ?_, ?_⟩
    · obtain ⟨hps, hk⟩ | ⟨-, hp⟩ := hold hp
      · obtain ⟨hqs, -⟩ | ⟨-, hq⟩ := hold hq
        · exact hps.trans hqs.symm
        · exact absurd (h.named q k hq) (by omega)
      · obtain ⟨-, hk⟩ | ⟨-, hq⟩ := hold hq
        · exact absurd (h.named p k hp) (by omega)
        · exact h.injective p q k hp hq
    · rw [length_append, length_singleton]
      obtain ⟨-, hk⟩ | ⟨-, hp⟩ := hold hp
      · omega
      · have := h.named p k hp
        omega
    · simp [ArchiveFile.upTo, CreatePhase.members]
    · exact Function.update_of_ne (Ne.symm (hother hy huses)) _ _
    · exact getElem?_append_left (h.named _ _ (h.holds d y hy huses).1)

theorem ArchivesKept.delete (h : ArchivesKept creates files paths)
    (hc : creates[c]? = some create) (hphase : create.phase = .returned) :
    ArchivesKept (creates.set c { create with phase := .deleted }) files
      (Function.update paths create.second none) := by
  have hold {p k : Nat} (hp : Function.update paths create.second none p = some k) :
      paths p = some k := by
    by_cases hps : p = create.second
    · rw [hps, Function.update_self] at hp
      cases hp
    · rwa [Function.update_of_ne hps] at hp
  refine h.set (fun p q k hp hq ↦ h.injective p q k (hold hp) (hold hq))
    (fun p k hp ↦ h.named p k (hold hp)) nofun fun d y hne hy huses ↦ ⟨nofun, ?_, rfl⟩
  refine Function.update_of_ne (fun hsecond ↦ ?_) _ _
  exact hne (h.distinct d c y create hy hc huses (by rw [hphase]; rfl) hsecond)

/-! ### The invariant -/

/-- One restore at a time, no backup beside it, and the archives are kept. -/
structure Workers.Inv (s : Workers) : Prop where
  restores : s.restores.countP RestorePhase.underWay ≤ 1
  unmet : ∀ create ∈ s.creates, create.metRestore = false
  archives : ArchivesKept s.creates s.files s.paths

theorem Workers.Inv.exclusive (h : s.Inv) : s.Exclusive := by
  refine ⟨?_, fun create hcreate _ ↦ h.unmet create hcreate, fun c create hc hphase ↦ ?_⟩
  · have hmono : s.restores.countP RestorePhase.between ≤ s.restores.countP RestorePhase.underWay :=
      countP_mono_left fun phase _ hphase ↦ by cases phase <;> first | rfl | cases hphase
    exact Nat.le_trans hmono h.restores
  · obtain ⟨hpath, hfile⟩ := h.archives.holds c create hc (by rw [hphase]; rfl)
    rw [archiveOf, hpath, Option.bind_some, hfile, hphase]
    rfl

private theorem countP_set_le {restores : List RestorePhase} {r : Nat} {phase new : RestorePhase}
    (hr : restores[r]? = some phase) (hphase : phase.underWay = true) :
    (restores.set r new).countP RestorePhase.underWay ≤ restores.countP RestorePhase.underWay := by
  obtain ⟨hlt, hget⟩ := List.getElem?_eq_some_iff.mp hr
  have hpos : 0 < restores.countP RestorePhase.underWay :=
    countP_pos_iff.mpr ⟨phase, mem_of_getElem? hr, hphase⟩
  rw [countP_set hlt, hget, if_pos hphase]
  split <;> omega

theorem Workers.stepRestore_eq {r : Nat} {phase : RestorePhase} {e : Event}
    (hst : s.stepRestore r phase e = some t) :
    phase.underWay = true ∧ ∃ new flag, t = { s.setRestore r new with flag := flag } := by
  cases e with
  | setMaintenance _ | dropDatabase _ | clearCache _ _ | replaceKey _ | finish _ =>
    obtain ⟨rfl, rfl⟩ := of_enabled hst
    exact ⟨rfl, _, _, rfl⟩
  | failRestore _ reachable =>
    cases phase with
    | ended => cases hst
    | _ =>
      cases hst
      exact ⟨rfl, _, _, rfl⟩
  | stopRestore _ =>
    obtain ⟨hphase, rfl⟩ := of_enabled hst
    exact ⟨hphase, _, _, rfl⟩
  | _ => cases hst

theorem Workers.archivesKept_stepCreate {e : Event} (h : ArchivesKept s.creates s.files s.paths)
    (hc : s.creates[c]? = some create) (hok : Alone s e)
    (hst : s.stepCreate c create e = some t) :
    ArchivesKept t.creates t.files t.paths ∧ t.restores = s.restores ∧
      ∃ x : Create, t.creates = s.creates.set c x ∧ x.metRestore = create.metRestore := by
  cases e with
  | write _ =>
    obtain ⟨phase, hphase, rfl⟩ := Option.map_eq_some_iff.mp hst
    refine ⟨h.set_phase hc fun huses ↦ ?_, rfl, _, rfl, rfl⟩
    cases hcreate : create.phase <;> rw [hcreate] at hphase <;> cases hphase <;> cases huses
  | openArchive _ second =>
    obtain ⟨-, rfl⟩ := of_enabled hst
    refine ⟨archivesKept_openFile h hok, ?_⟩
    unfold openFile
    split <;> exact ⟨rfl, _, rfl, rfl⟩
  | addMember _ =>
    simp only [stepCreate] at hst
    split at hst
    · next n hphase =>
      obtain ⟨-, rfl⟩ := of_enabled hst
      exact ⟨h.add hc hphase, rfl, _, rfl, rfl⟩
    · cases hst
  | giveBack _ =>
    obtain ⟨hphase, rfl⟩ := of_enabled hst
    refine ⟨h.set_phase hc fun _ ↦ ?_, rfl, _, rfl, rfl⟩
    rw [hphase]
    exact ⟨rfl, rfl⟩
  | failCreate _ =>
    obtain ⟨-, rfl⟩ := of_enabled hst
    exact ⟨h.set_phase hc fun huses ↦ absurd huses Bool.false_ne_true, rfl, _, rfl, rfl⟩
  | deleteArchive _ =>
    obtain ⟨hphase, rfl⟩ := of_enabled hst
    exact ⟨h.delete hc hphase, rfl, _, rfl, rfl⟩
  | _ => cases hst

theorem ArchivesKept.begin (h : ArchivesKept creates files paths) (hx : x.phase.usesArchive = false) :
    ArchivesKept (creates ++ [x]) files paths := by
  have hold {d : Nat} {y : Create} (hd : (creates ++ [x])[d]? = some y)
      (huses : y.phase.usesArchive = true) : creates[d]? = some y := by
    rcases getElem?_append ▸ hd with hd
    split at hd
    · exact hd
    · have hy := mem_of_getElem? hd
      rw [mem_singleton.mp hy, hx] at huses
      cases huses
  exact ⟨h.injective, h.named, fun i j y z hi hj hy hz ↦ h.distinct i j y z (hold hi hy) (hold hj hz) hy hz,
    fun i y hi hy ↦ h.holds i y (hold hi hy) hy⟩

private theorem map_metRestore (h : s.creating = false) :
    (s.creates.map fun c ↦ { c with metRestore := c.metRestore || c.phase.underWay }) =
      s.creates := by
  refine (map_congr_left fun x hx ↦ ?_).trans (map_id _)
  have hnot : x.phase.underWay = false := by
    simpa using any_eq_false.mp h x hx
  rw [hnot, Bool.or_false, id]

theorem Workers.Inv.step {e : Event} (h : s.Inv) (hok : Alone s e) (hst : workersStep s e = some t) :
    t.Inv := by
  have hcreate {c : Nat} (hst : (s.creates[c]?.bind fun create ↦ s.stepCreate c create e) = some t) :
      t.Inv := by
    obtain ⟨create, hc, hst⟩ := Option.bind_eq_some_iff.mp hst
    obtain ⟨harchives, hrestores, x, hx, hmet⟩ := archivesKept_stepCreate h.archives hc hok hst
    refine ⟨hrestores ▸ h.restores, fun y hy ↦ ?_, harchives⟩
    rw [hx] at hy
    rcases mem_or_eq_of_mem_set hy with hy | rfl
    · exact h.unmet y hy
    · rw [hmet]
      exact h.unmet create (mem_of_getElem? hc)
  have hrestore {r : Nat} (hst : (s.restores[r]?.bind fun phase ↦ s.stepRestore r phase e) = some t) :
      t.Inv := by
    obtain ⟨phase, hr, hst⟩ := Option.bind_eq_some_iff.mp hst
    obtain ⟨hphase, new, flag, rfl⟩ := stepRestore_eq hst
    exact ⟨Nat.le_trans (countP_set_le hr hphase) h.restores, h.unmet, h.archives⟩
  cases e with
  | create reachable =>
    cases hst
    unfold beginCreate
    split
    · refine ⟨h.restores, fun y hy ↦ ?_, h.archives.begin rfl⟩
      rcases mem_append.mp hy with hy | hy
      · exact h.unmet y hy
      · rw [mem_singleton.mp hy]
    · next hpasses =>
      refine ⟨h.restores, fun y hy ↦ ?_, h.archives.begin rfl⟩
      rcases mem_append.mp hy with hy | hy
      · exact h.unmet y hy
      · rw [mem_singleton.mp hy]
        exact hok.resolve_left hpasses
  | restore reachable =>
    cases hst
    unfold beginRestore
    split
    · refine ⟨?_, h.unmet, h.archives⟩
      rw [countP_append]
      exact h.restores
    · next hpasses =>
      obtain ⟨hnone, hnot⟩ := hok.resolve_left hpasses
      have hzero : s.restores.countP RestorePhase.underWay = 0 :=
        countP_eq_zero.mpr fun phase hphase ↦ by simpa using any_eq_false.mp hnone phase hphase
      rw [map_metRestore hnot]
      refine ⟨?_, h.unmet, h.archives⟩
      rw [countP_append, hzero]
      exact Nat.le_refl 1
  | expire =>
    cases hst
    exact ⟨h.restores, h.unmet, h.archives⟩
  | write _ | openArchive _ _ | addMember _ | giveBack _ | failCreate _ | deleteArchive _ =>
    exact hcreate hst
  | _ => exact hrestore hst

/-- In every run in which no call passes the check beside a restore, no restore beside a backup, and
no two calls use the same name for their archives, backups and restores exclude each other. -/
theorem backups_and_restores_exclude {es : List Event} {t : Workers}
    (h : Run workersStep Alone {} es t) : t.Exclusive := by
  have hempty : ArchivesKept [] [] fun _ ↦ none :=
    ⟨fun _ _ _ hp ↦ by simp at hp, fun _ _ hp ↦ by simp at hp, fun _ _ _ _ hi ↦ by simp at hi,
      fun _ _ hi ↦ by simp at hi⟩
  have hinit : Workers.Inv {} := ⟨Nat.zero_le 1, fun _ hx ↦ absurd hx List.not_mem_nil, hempty⟩
  exact (h.invariant hinit fun _ _ _ hinv hok hst ↦ hinv.step hok hst).exclusive

end

/-! ### A backup and two restores -/

instance (s : Workers) (e : Event) : Decidable (Alone s e) :=
  match e with
  | .create _ => inferInstanceAs (Decidable (_ ∨ _))
  | .restore _ => inferInstanceAs (Decidable (_ ∨ _ ∧ _))
  | .openArchive _ second => inferInstanceAs (Decidable (∀ create ∈ s.creates,
      create.phase.usesArchive = true → create.second ≠ second))
  | .write _ | .addMember _ | .giveBack _ | .failCreate _ | .deleteArchive _ | .setMaintenance _
  | .dropDatabase _ | .clearCache _ _ | .replaceKey _ | .finish _ | .failRestore _ _ | .stopRestore _
  | .expire => isTrue trivial

def upToCache (r : Nat) : List Event :=
  [.restore true, .setMaintenance r, .dropDatabase r, .clearCache r true]

/-- The first restore has cleared the cache and not yet replaced the key when a second one begins. -/
theorem second_restore_let_in : ¬ ∀ es t, Run workersStep Free {} es t → t.Exclusive := by
  obtain ⟨t, hrun, hcount⟩ : ∃ t, Run workersStep Free {} (upToCache 0 ++ upToCache 1) t ∧
      ¬ t.restores.countP RestorePhase.between ≤ 1 := Run.exists_of_exec (by decide)
  exact fun h ↦ hcount (h _ t hrun).restores

def backupThenRestore : List Event :=
  [.create true, .write 0, .write 0, .write 0, .openArchive 0 5, .addMember 0, .addMember 0,
    .addMember 0, .giveBack 0] ++ upToCache 0 ++ [.replaceKey 0, .finish 0]

theorem backup_then_restore : ∃ t, Run workersStep Alone {} backupThenRestore t ∧
    t.creates.length = 1 ∧ t.restores = [.ended] ∧ t.Exclusive := by
  obtain ⟨t, hrun, hlen, hended⟩ : ∃ t, Run workersStep Alone {} backupThenRestore t ∧
      t.creates.length = 1 ∧ t.restores = [.ended] := Run.exists_of_exec (by decide)
  exact ⟨t, hrun, hlen, hended, backups_and_restores_exclude hrun⟩

end BnkForge.Backup
