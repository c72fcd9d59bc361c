import BnkForge.Lib.Faults
import BnkForge.Lib.PythonBytes
import BnkForge.Lib.PythonText

/-!
# Restoring a backup

`BackupService.restore_backup` (`backend/services/backup_service.py:589–758`) with the steps that it
takes: `validate_archive` (`:266–308`), `_restore_database` (`:337–458`), `_check_and_run_migrations`
(`:464–533`) and `_replace_encryption_key` (`:539–583`). Every step may fail, and the process may stop
at every step. The database and the key file are replaced at different steps.
-/

namespace BnkForge.Backup

open Faults Python List

/-! ### Archives and the installation -/

/-- A line of a dump, or what has become of it in the database. It records under which key the value
in it is encrypted, where there is one; no function of the program looks at that. -/
structure Line where
  text : List Char
  key : Option Bytes := none
  deriving DecidableEq, Repr

/-- `metadata.json`, with the defaults that it is read with. -/
structure Metadata where
  formatVersion : Int := 0
  forgeVersion : String := "unknown"
  alembicHead : String := "unknown"
  tableCounts : List (String × Int) := []
  deriving DecidableEq, Repr

/-- An archive: the names of its members, and what those hold that are read. `W` are the wrapped
keys. -/
structure Archive (W : Type) where
  members : List String
  metadata : Metadata
  dump : List Line
  wrappedKey : W

/-- The database and the key file. The lines that `psql` has replayed are recorded. -/
structure Stores where
  /-- What is in the key file. -/
  key : Option Bytes
  /-- The rows, where there is a database. -/
  database : Option (List Line)
  replayed : List Line := []
  deriving DecidableEq, Repr

def Stores.Fits (d : Stores) : Prop :=
  ∀ line ∈ d.database.getD [], ∀ k ∈ line.key, d.key = some k

instance (d : Stores) : Decidable d.Fits :=
  inferInstanceAs (Decidable (∀ line ∈ d.database.getD [], ∀ k ∈ line.key, d.key = some k))

structure Installation where
  stores : Stores
  maintenance : Bool := false
  /-- The marker beside the key file. -/
  operatorMarker : Bool := false
  deriving DecidableEq, Repr

def Installation.onStores (f : Stores → Stores) (s : Installation) : Installation :=
  { s with stores := f s.stores }

/-! ### What the restore runs on -/

/-- The points at which a restore may fail or stop. -/
inductive Step
  | redis | auditStarted | makeTmp | readArchive | extract | loadKey | setMaintenance | closeSession
  | findPsql | terminate | drop | create | decompress | sanitise | replay | unlink | dispose
  | clearCache | readRevisions | upgrade | loadKeyAgain | makeDirectory | openKey | writeKey
  | writeMarker | clearMaintenance | auditCompleted | clearOnFailure | auditFailed | removeTmp
  deriving DecidableEq, Repr

inductive BackupErrorCode
  | invalidPassphrase | incompatibleFormat | invalidArchive | restoreInProgress | backupInProgress
  | dumpFailed | restoreFailed | migrationFailed
  deriving DecidableEq, Repr

inductive Failure
  | backup (code : BackupErrorCode) (message : String)
  | other (text : String)
  deriving DecidableEq, Repr

/-- How `psql --file` has ended, and how many lines of the file it has replayed. -/
structure Replay where
  returncode : Int
  stderr : List Char
  replayed : Nat

/-- `psql` with `ON_ERROR_STOP`: where it has not replayed the whole file, its exit status is not
zero. -/
structure Psql where
  run : List Line → Replay
  complete : ∀ lines, (run lines).returncode = 0 → lines.length ≤ (run lines).replayed

/-- What the code calls, and what goes wrong: `unwrap` is `unwrap_fernet_key`, which raises
`ValueError` with a text; `migrate` is what `alembic upgrade` makes of the rows, where values are
encrypted under the key that the process has loaded. -/
structure World (W : Type) where
  fault : Step → Fault
  /-- The text of an exception, or what a command has written to its standard error. -/
  text : Step → String
  /-- A command of `psql` has ended, though not with zero. -/
  exited : Step → Bool
  unwrap : W → List Char → Except String Bytes
  psql : Psql
  cacheCleared : Bool
  processKey : Bytes
  /-- The revisions from the newest on. -/
  revisions : List String
  codeHead : String
  migrate : Bytes → List Line → List Line
  version : String

/-- The answer of a restore. -/
structure Restored where
  status : String
  tableCounts : List (String × Int)
  migrationsApplied : List String
  warnings : List String
  restartTriggered : Bool
  deriving DecidableEq, Repr

abbrev Restoring := Proc Failure Installation

variable {W : Type} (w : World W)

/-! ### The steps -/

/-- A step that raises an exception of its own where it fails. -/
def World.step (p : Step) (f : Installation → Installation) : Restoring Unit :=
  (w.fault p).perform (.other (w.text p)) f

/-- `create_audit_log` swallows exceptions. -/
def World.createAuditLog (p : Step) : Restoring Unit := (w.fault p).tolerate id

/-- `is_maintenance_mode`: without an answer from Redis there is none. -/
def World.isMaintenanceMode : Restoring Bool := fun s ↦
  match w.fault .redis with
  | .passes => (.returned s.maintenance, s)
  | .raises _ => (.returned false, s)
  | .stops _ => (.stopped, s)

def required : List String := ["metadata.json", "dump.sql.gz", "wrapped_key.enc"]

def Archive.missing (a : Archive W) : List String := required.filter fun f ↦ f ∉ a.members

/-- `str` of a list of texts without quotes. -/
def listed (texts : List String) : String :=
  "[" ++ ", ".intercalate (texts.map fun t ↦ "'" ++ t ++ "'") ++ "]"

def World.validateArchive (a : Archive W) : Restoring Metadata :=
  (w.fault .readArchive).perform
      (.backup .invalidArchive ("Invalid archive format: " ++ w.text .readArchive)) id >>= fun _ ↦
    if a.missing ≠ [] then
      Proc.raise (.backup .invalidArchive ("Archive missing required files: " ++ listed a.missing))
    else if a.metadata.formatVersion > 1 then
      Proc.raise (.backup .incompatibleFormat
        ("Archive format version " ++ toString a.metadata.formatVersion ++ " not supported (max: 1)"))
    else pure a.metadata

/-- `_run_psql`: the command has failed, or was not run to its end. -/
def World.runPsql (p : Step) (f : Stores → Stores) : Restoring Unit :=
  (w.fault p).perform
    (.backup .restoreFailed
      (if w.exited p then "Database command failed: " ++ String.ofList ((w.text p).toList.take 500)
      else "Database reset failed: " ++ w.text p))
    (Installation.onStores f)

def isTransactionTimeout (line : Line) : Bool :=
  "SET transaction_timeout =".toList.isPrefixOf (line.text.dropWhile isSpace)

def sanitised (dump : List Line) : List Line := dump.filter fun line ↦ !isTransactionTimeout line

/-- `psql` replays the lines into the database. -/
def Stores.replay (lines : List Line) (n : Nat) (d : Stores) : Stores :=
  { d with database := d.database.map (· ++ lines.take n), replayed := lines.take n }

/-- The output of `psql` tells of an error. -/
def Replay.saysError (r : Replay) : Bool := contains (upper r.stderr) "ERROR:".toList

/-- The lines that are kept are replayed. Only the output tells a failure of `psql` from a success
with warnings. -/
def World.replayDump (dump : List Line) : Restoring Unit := do
  w.step .sanitise id
  w.step .replay (Installation.onStores
    (Stores.replay (sanitised dump) (w.psql.run (sanitised dump)).replayed))
  if (w.psql.run (sanitised dump)).returncode ≠ 0 ∧ (w.psql.run (sanitised dump)).saysError then
    Proc.raise (.backup .restoreFailed ("Database restore failed: " ++
      String.ofList ((w.psql.run (sanitised dump)).stderr.take 500)))
  else pure ()

def World.restoreDatabase (dump : List Line) : Restoring Unit := do
  (w.fault .findPsql).perform
    (.backup .dumpFailed "Required PostgreSQL client not found: psql") id
  w.runPsql .terminate id
  w.runPsql .drop fun d ↦ { d with database := none }
  w.runPsql .create fun d ↦ { d with database := some [] }
  w.step .decompress id
  (w.replayDump dump).ensuring (w.step .unlink id)

/-- The revisions that were applied, told from the oldest one on. -/
def applied (archiveHead codeHead : String) : Bool → List String → List String
  | _, [] => []
  | found, rev :: revs =>
    if rev = archiveHead then applied archiveHead codeHead true revs
    else
      (if found || archiveHead == "unknown" then [rev] else []) ++
        if rev = codeHead then [] else applied archiveHead codeHead found revs

def World.checkAndRunMigrations (archiveHead : String) : Restoring (List String) := do
  (w.fault .readRevisions).perform
    (.backup .migrationFailed ("Database migration failed: " ++ w.text .readRevisions)) id
  if archiveHead = w.codeHead then pure []
  else do
    (w.fault .upgrade).perform
      (.backup .migrationFailed ("Database migration failed: " ++ w.text .upgrade))
      (Installation.onStores fun d ↦ { d with database := d.database.map (w.migrate w.processKey) })
    pure (applied archiveHead w.codeHead false w.revisions.reverse)

/-- `_replace_encryption_key`. Opening the file to write empties it. -/
def World.replaceEncryptionKey (wrapped : W) (passphrase : List Char) : Restoring Unit := do
  w.step .loadKeyAgain id
  match w.unwrap wrapped passphrase with
  | .error e => Proc.raise (.backup .invalidPassphrase ("Invalid passphrase: " ++ e))
  | .ok rawKey => do
    w.step .makeDirectory id
    w.step .openKey (Installation.onStores fun d ↦ { d with key := some [] })
    w.step .writeKey (Installation.onStores fun d ↦ { d with key := some rawKey })
    (w.fault .writeMarker).tolerate fun s ↦ { s with operatorMarker := true }

def World.replaceAll (a : Archive W) (metadata : Metadata) (passphrase : List Char) :
    Restoring Restored := do
  w.step .closeSession id
  w.restoreDatabase a.dump
  w.step .dispose id
  (w.fault .clearCache).tolerate id
  let migrationsApplied ← w.checkAndRunMigrations metadata.alembicHead
  w.replaceEncryptionKey a.wrappedKey passphrase
  w.step .clearMaintenance fun s ↦ { s with maintenance := false }
  w.createAuditLog .auditCompleted
  pure
    { status := "success"
      tableCounts := metadata.tableCounts
      migrationsApplied := migrationsApplied
      warnings :=
        (if metadata.forgeVersion ≠ w.version then
          ["Archive from version " ++ metadata.forgeVersion ++ ", restoring to " ++ w.version] else []) ++
        if w.cacheCleared then [] else ["Failed to clear Redis cache - manual flush may be needed"]
      restartTriggered := true }

/-- The two `except` clauses around the replacement. -/
def World.onFailure (e : Failure) : Restoring Restored := do
  w.step .clearOnFailure fun s ↦ { s with maintenance := false }
  w.createAuditLog .auditFailed
  match e with
  | .backup _ _ => Proc.raise e
  | .other text => Proc.raise (.backup .restoreFailed ("Restore failed: " ++ text))

def World.restoreArchive (a : Archive W) (passphrase : List Char) : Restoring Restored := do
  let metadata ← w.validateArchive a
  (w.fault .extract).perform (.backup .invalidArchive (w.text .extract)) id
  w.step .loadKey id
  match w.unwrap a.wrappedKey passphrase with
  | .error _ =>
    Proc.raise (.backup .invalidPassphrase
      "Invalid passphrase — cannot decrypt the encryption key")
  | .ok _ => do
    w.step .setMaintenance fun s ↦ { s with maintenance := true }
    (w.replaceAll a metadata passphrase).attempt w.onFailure

def World.letIn (a : Archive W) (passphrase : List Char) : Restoring Restored := do
  w.createAuditLog .auditStarted
  w.step .makeTmp id
  (w.restoreArchive a passphrase).ensuring ((w.fault .removeTmp).tolerate id)

def World.restoreBackup (a : Archive W) (passphrase : List Char) : Restoring Restored := do
  if ← w.isMaintenanceMode then
    Proc.raise (.backup .restoreInProgress "Another restore operation is in progress")
  else w.letIn a passphrase

/-! ### Where it ends and what is left -/

section

variable (a : Archive W) (passphrase : List Char)

def World.unwraps : Bool := (w.unwrap a.wrappedKey passphrase).isOk

def World.passing (p : Step) : Point Stores := (w.fault p).point id

def World.surviving (p : Step) : Point Stores := .check (!(w.fault p).isStop)

/-- The archive is one that can be read. -/
def Archive.Valid : Prop := a.missing = [] ∧ a.metadata.formatVersion ≤ 1

instance : Decidable a.Valid := inferInstanceAs (Decidable (_ ∧ _))

/-- Up to the dropping of the database. -/
def World.preparation : List (Point Stores) :=
  [w.surviving .auditStarted, w.passing .makeTmp, w.passing .readArchive, .check a.Valid,
    w.passing .extract, w.passing .loadKey, .check (w.unwraps a passphrase),
    w.passing .setMaintenance, w.passing .closeSession, w.passing .findPsql, w.passing .terminate]

def World.resetting : List (Point Stores) :=
  [(w.fault .drop).point fun d ↦ { d with database := none },
    (w.fault .create).point fun d ↦ { d with database := some [] }]

/-- From the new database to the replay. -/
def World.unpacking : List (Point Stores) := [w.passing .decompress, w.passing .sanitise]

/-- What `psql` makes of the dump. -/
def World.replayOf : Replay := w.psql.run (sanitised a.dump)

def World.replaying : List (Point Stores) :=
  [(w.fault .replay).point (Stores.replay (sanitised a.dump) (w.replayOf a).replayed)]

/-- The end of `psql` is taken for a success. -/
def World.accepts : Bool := (w.replayOf a).returncode = 0 ∨ (w.replayOf a).saysError = false

/-- From the replay to the migration. -/
def World.clearing : List (Point Stores) :=
  [.check (w.accepts a), w.passing .unlink, w.passing .dispose, w.surviving .clearCache,
    w.passing .readRevisions]

def World.upgrading : List (Point Stores) :=
  if a.metadata.alembicHead = w.codeHead then []
  else [(w.fault .upgrade).point fun d ↦
    { d with database := d.database.map (w.migrate w.processKey) }]

/-- From the migration to the opening of the key file. -/
def World.keyLoading : List (Point Stores) :=
  [w.passing .loadKeyAgain, .check (w.unwraps a passphrase), w.passing .makeDirectory]

def World.keyOpening : List (Point Stores) :=
  [(w.fault .openKey).point fun d ↦ { d with key := some [] }]

def World.keyWriting : List (Point Stores) :=
  [(w.fault .writeKey).point fun d ↦
    { d with key := (w.unwrap a.wrappedKey passphrase).toOption }]

/-- From the writing of the key on. -/
def World.ending : List (Point Stores) :=
  [w.surviving .writeMarker, w.passing .clearMaintenance, w.surviving .auditCompleted,
    w.surviving .removeTmp]

/-- All that a restore goes through once it is let in. -/
def World.points : List (Point Stores) :=
  w.preparation a passphrase ++ w.resetting ++ w.unpacking ++ w.replaying a ++ w.clearing a ++
    w.upgrading a ++ w.keyLoading a passphrase ++ w.keyOpening ++ w.keyWriting a passphrase ++
    w.ending

end

section

variable {w} {a : Archive W} {passphrase : List Char}

private theorem id_stores (s : Installation) : (id s).stores = id s.stores := rfl

theorem World.validateArchive_follows :
    Follows Installation.stores (w.validateArchive a) [w.passing .readArchive, .check a.Valid] := by
  have hvalid : decide a.Valid =
      (!decide (a.missing ≠ []) && (!decide (a.metadata.formatVersion > 1) && true)) := by
    rw [Bool.eq_iff_iff, decide_eq_true_iff]
    simp [Archive.Valid]
  rw [hvalid]
  exact Follows.perform_bind id_stores (Follows.guard (Follows.guard (Follows.pure_check _)))

theorem World.validateArchive_yields : Yields (· = a.metadata) (w.validateArchive a) :=
  Yields.bind fun _ ↦ Yields.guard (Yields.guard (Yields.pure rfl))

theorem World.restoreDatabase_follows :
    Follows Installation.stores (w.restoreDatabase a.dump)
      ([w.passing .findPsql, w.passing .terminate] ++ w.resetting ++ w.unpacking ++ w.replaying a ++
        [.check (w.accepts a), w.passing .unlink]) := by
  have haccepts : w.accepts a =
      (!decide ((w.replayOf a).returncode ≠ 0 ∧ (w.replayOf a).saysError) && true) := by
    simp [accepts]
  have hreplay : Follows Installation.stores (w.replayDump a.dump)
      ([w.passing .sanitise] ++ w.replaying a ++ [.check (w.accepts a)]) := by
    refine Follows.perform_bind id_stores (Follows.perform_bind (fun _ ↦ rfl) ?_)
    rw [haccepts]
    exact Follows.guard (Follows.pure_check _)
  refine Follows.perform_bind id_stores ?_
  refine Follows.perform_bind (fun _ ↦ rfl) ?_
  refine Follows.perform_bind (fun _ ↦ rfl) ?_
  refine Follows.perform_bind (fun _ ↦ rfl) ?_
  refine Follows.perform_bind id_stores ?_
  exact hreplay.ensuring (Follows.perform id_stores) (by simp [passing, Fault.point])

theorem World.checkAndRunMigrations_follows :
    Follows Installation.stores (w.checkAndRunMigrations a.metadata.alembicHead)
      ([w.passing .readRevisions] ++ w.upgrading a) := by
  refine Follows.perform_bind id_stores ?_
  unfold upgrading
  split
  · exact Follows.pure _
  · exact Follows.perform_bind (fun _ ↦ rfl) (Follows.pure _)

theorem World.replaceEncryptionKey_follows :
    Follows Installation.stores (w.replaceEncryptionKey a.wrappedKey passphrase)
      (w.keyLoading a passphrase ++ w.keyOpening ++ w.keyWriting a passphrase ++
        [w.surviving .writeMarker]) := by
  refine Follows.perform_bind id_stores ?_
  rw [unwraps, keyWriting]
  cases w.unwrap a.wrappedKey passphrase with
  | error e => exact Follows.raise_cons _
  | ok rawKey =>
    refine Follows.passed_cons (Follows.perform_bind id_stores ?_)
    refine Follows.perform_bind (fun _ ↦ rfl) ?_
    refine Follows.perform_bind (fun _ ↦ rfl) ?_
    exact Follows.tolerate fun _ ↦ rfl

theorem World.replaceAll_follows {metadata : Metadata} (hmetadata : metadata = a.metadata) :
    Follows Installation.stores (w.replaceAll a metadata passphrase)
      ([w.passing .closeSession, w.passing .findPsql, w.passing .terminate] ++ w.resetting ++
        w.unpacking ++ w.replaying a ++ w.clearing a ++ w.upgrading a ++ w.keyLoading a passphrase ++
        w.keyOpening ++ w.keyWriting a passphrase ++
        [w.surviving .writeMarker, w.passing .clearMaintenance, w.surviving .auditCompleted]) := by
  subst hmetadata
  have hfollows : Follows Installation.stores (w.replaceAll a a.metadata passphrase)
      (w.passing .closeSession ::
        (([w.passing .findPsql, w.passing .terminate] ++ w.resetting ++ w.unpacking ++
          w.replaying a ++ [.check (w.accepts a), w.passing .unlink]) ++
        w.passing .dispose :: w.surviving .clearCache ::
        (([w.passing .readRevisions] ++ w.upgrading a) ++
        ((w.keyLoading a passphrase ++ w.keyOpening ++ w.keyWriting a passphrase ++
          [w.surviving .writeMarker]) ++
        [w.passing .clearMaintenance, w.surviving .auditCompleted])))) := by
    refine Follows.perform_bind id_stores (World.restoreDatabase_follows.bind_unit ?_)
    refine Follows.perform_bind id_stores (Follows.tolerate_bind (fun _ ↦ rfl) ?_)
    refine World.checkAndRunMigrations_follows.bind fun _ ↦ ?_
    refine World.replaceEncryptionKey_follows.bind_unit ?_
    refine Follows.perform_bind (fun _ ↦ rfl) ?_
    exact Follows.tolerate_bind (fun _ ↦ rfl) (Follows.pure _)
  simpa only [clearing, append_assoc, cons_append, nil_append] using hfollows

theorem World.onFailure_keeps (e : Failure) (s : Installation) :
    (w.onFailure e s).1.isReturned = false ∧ (w.onFailure e s).2.stores = s.stores := by
  have hfollows : Follows Installation.stores (w.onFailure e)
      [w.passing .clearOnFailure, w.surviving .auditFailed, .check false] := by
    refine Follows.perform_bind (fun _ ↦ rfl) (Follows.tolerate_bind (fun _ ↦ rfl) ?_)
    cases e <;> exact Follows.raise_cons _
  have hneutral : ∀ p ∈ [w.passing .clearOnFailure, w.surviving .auditFailed, .check false],
      p.effect = id := by
    simp [passing, surviving, Fault.point, Point.check]
  obtain ⟨hret, hstores⟩ := hfollows s
  rw [leaves_of_neutral hneutral] at hret hstores
  refine ⟨?_, hstores⟩
  rw [hret]
  simp [Point.check]

theorem World.restoreArchive_follows (w : World W) (a : Archive W) (passphrase : List Char) :
    Follows Installation.stores (w.restoreArchive a passphrase)
      ([w.passing .readArchive, .check a.Valid, w.passing .extract, w.passing .loadKey,
          .check (w.unwraps a passphrase), w.passing .setMaintenance, w.passing .closeSession,
          w.passing .findPsql, w.passing .terminate] ++ w.resetting ++ w.unpacking ++
        w.replaying a ++ w.clearing a ++ w.upgrading a ++ w.keyLoading a passphrase ++
        w.keyOpening ++ w.keyWriting a passphrase ++
        [w.surviving .writeMarker, w.passing .clearMaintenance, w.surviving .auditCompleted]) := by
  simp only [append_assoc]
  refine World.validateArchive_follows.bind_of validateArchive_yields fun metadata hmetadata ↦ ?_
  refine Follows.perform_bind id_stores (Follows.perform_bind id_stores ?_)
  have hall : Follows Installation.stores
      ((w.replaceAll a metadata passphrase).attempt w.onFailure) _ :=
    (replaceAll_follows hmetadata).attempt onFailure_keeps
  simp only [append_assoc] at hall
  rw [unwraps]
  cases w.unwrap a.wrappedKey passphrase with
  | error e => exact Follows.raise_cons _
  | ok rawKey => exact Follows.passed_cons (Follows.perform_bind (fun _ ↦ rfl) hall)

theorem World.letIn_follows :
    Follows Installation.stores (w.letIn a passphrase) (w.points a passphrase) := by
  have hneutral : ∀ q ∈ [w.surviving .removeTmp], q.effect = id := by simp [surviving, Point.check]
  have harchive := (w.restoreArchive_follows a passphrase).ensuring
    (Follows.tolerate fun _ ↦ rfl) hneutral
  have hfollows : Follows Installation.stores (w.letIn a passphrase) _ :=
    Follows.tolerate_bind (fun _ ↦ rfl) (Follows.perform_bind id_stores harchive)
  simpa only [points, preparation, ending, passing, surviving, append_assoc, cons_append,
    nil_append] using hfollows

end

/-! ### When the key fits -/

section

variable (a : Archive W) (passphrase : List Char) (s : Installation)

def World.refuses : Bool := s.maintenance && (w.fault .redis).isPass || (w.fault .redis).isStop

def World.replays : Bool :=
  !w.refuses s && (w.preparation a passphrase ++ w.resetting ++ w.unpacking).all Point.passes &&
    (w.fault .replay).acts

def World.upgrades : Bool :=
  (w.fault .replay).isPass && (w.clearing a).all Point.passes &&
    a.metadata.alembicHead ≠ w.codeHead && (w.fault .upgrade).acts

def World.opensKey : Bool :=
  (w.fault .replay).isPass &&
    (w.clearing a ++ w.upgrading a ++ w.keyLoading a passphrase).all Point.passes &&
    (w.fault .openKey).acts

def World.writesKey : Bool :=
  w.opensKey a passphrase && (w.fault .openKey).isPass && (w.fault .writeKey).acts

def World.rowsLeft : List Line :=
  let rows := (sanitised a.dump).take (w.replayOf a).replayed
  if w.upgrades a then w.migrate w.processKey rows else rows

def World.keyLeft : Option Bytes :=
  if w.writesKey a passphrase then (w.unwrap a.wrappedKey passphrase).toOption
  else if w.opensKey a passphrase then some []
  else s.stores.key

def World.KeyFits : Prop :=
  w.replays a passphrase s = true →
    ∀ line ∈ w.rowsLeft a, ∀ k ∈ line.key, w.keyLeft a passphrase s = some k

/-- Something goes wrong that is noticed, or `psql` has replayed all lines and none was left out. -/
def World.ReplaysAll : Prop :=
  w.refuses s = false → (w.points a passphrase).all Point.passes = true →
    ((w.replayOf a).returncode = 0 ∨ a.dump.length ≤ (w.replayOf a).replayed) ∧
      ∀ line ∈ a.dump, isTransactionTimeout line = false

instance : Decidable (w.KeyFits a passphrase s) :=
  inferInstanceAs (Decidable (_ → ∀ line ∈ w.rowsLeft a, ∀ k ∈ line.key, _ = some k))

instance : Decidable (w.ReplaysAll a passphrase s) :=
  inferInstanceAs (Decidable (_ → _ → (_ ∨ _) ∧ ∀ line ∈ a.dump, _))

end

section

variable {w} {a : Archive W} {passphrase : List Char} {d : Stores}

theorem World.leaves_resetting (w : World W) (d : Stores) :
    ((leaves w.resetting d).2 = d ∨ (leaves w.resetting d).2.database.getD [] = []) ∧
      ((leaves w.resetting d).1 = true → (leaves w.resetting d).2 = { d with database := some [] }) := by
  unfold resetting
  cases w.fault .drop with
  | passes =>
    cases w.fault .create with
    | passes => exact ⟨Or.inr rfl, fun _ ↦ rfl⟩
    | raises done => cases done <;> exact ⟨Or.inr rfl, nofun⟩
    | stops done => cases done <;> exact ⟨Or.inr rfl, nofun⟩
  | raises done =>
    cases done
    · exact ⟨Or.inl rfl, nofun⟩
    · exact ⟨Or.inr rfl, nofun⟩
  | stops done =>
    cases done
    · exact ⟨Or.inl rfl, nofun⟩
    · exact ⟨Or.inr rfl, nofun⟩

private theorem neutral_clearing : ∀ p ∈ w.clearing a, p.effect = id := by
  simp [World.clearing, World.passing, World.surviving, Fault.point, Point.check]

private theorem neutral_keyLoading : ∀ p ∈ w.keyLoading a passphrase, p.effect = id := by
  simp [World.keyLoading, World.passing, Fault.point, Point.check]

private theorem neutral_ending : ∀ p ∈ w.ending, p.effect = id := by
  simp [World.ending, World.passing, World.surviving, Fault.point, Point.check]

theorem World.leaves_key : (leaves (w.keyLoading a passphrase ++
      (w.keyOpening ++ (w.keyWriting a passphrase ++ w.ending))) d).2 =
    { d with key :=
        if (w.keyLoading a passphrase).all Point.passes && (w.fault .openKey).acts then
          if (w.fault .openKey).isPass && (w.fault .writeKey).acts then
            (w.unwrap a.wrappedKey passphrase).toOption
          else some []
        else d.key } := by
  rw [leaves_neutral_append neutral_keyLoading, keyOpening, keyWriting]
  simp only [cons_append, nil_append, leaves_point_cons,
    leaves_of_neutral neutral_ending, Bool.and_eq_true]
  split_ifs <;> simp_all

theorem World.leaves_upgrading : (leaves (w.upgrading a) d).2 =
    if a.metadata.alembicHead ≠ w.codeHead ∧ (w.fault .upgrade).acts then
      { d with database := d.database.map (w.migrate w.processKey) }
    else d := by
  unfold upgrading
  split
  · next heq => rw [if_neg (fun h ↦ h.1 heq), leaves]
  · next hne =>
    rw [leaves_point_cons, leaves, ite_self]
    simp only [ne_eq, hne, not_false_eq_true, true_and]

theorem World.leaves_replaying (hrows : d.database = some []) :
    (leaves (w.replaying a ++ (w.clearing a ++ (w.upgrading a ++ (w.keyLoading a passphrase ++
        (w.keyOpening ++ (w.keyWriting a passphrase ++ w.ending)))))) d).2 =
      if (w.fault .replay).acts then
        { key :=
            if w.writesKey a passphrase then (w.unwrap a.wrappedKey passphrase).toOption
            else if w.opensKey a passphrase then some []
            else d.key
          database := some (w.rowsLeft a)
          replayed := (sanitised a.dump).take (w.replayOf a).replayed }
      else d := by
  rw [replaying, cons_append, nil_append, leaves_point_cons,
    leaves_neutral_append neutral_clearing, leaves_append_snd, leaves_key, leaves_upgrading]
  simp only [writesKey, opensKey, rowsLeft, upgrades, all_append]
  congr 1
  rcases Bool.eq_false_or_eq_true (w.fault .replay).isPass with hpass | hpass
  · rcases Bool.eq_false_or_eq_true ((w.clearing a).all Point.passes) with hcleared | hcleared
    · rcases Bool.eq_false_or_eq_true ((w.upgrading a).all Point.passes) with hupgraded | hupgraded
      · simp only [Stores.replay, hrows, hpass, hcleared, hupgraded, Bool.true_and]
        split_ifs <;> simp_all
      · simp only [Stores.replay, hrows, hpass, hcleared, hupgraded, Bool.true_and, Bool.false_and]
        split_ifs <;> simp_all
    · simp only [Stores.replay, hrows, hpass, hcleared, Bool.true_and, Bool.false_and]
      simp
  · simp only [Stores.replay, hrows, hpass, Bool.false_and]
    simp
theorem World.restoreBackup_yields :
    Yields (fun r : Restored ↦ r.status = "success") (w.restoreBackup a passphrase) := by
  have hall {metadata : Metadata} : Yields (fun r : Restored ↦ r.status = "success")
      (w.replaceAll a metadata passphrase) := by
    unfold replaceAll
    iterate 8 refine Yields.bind fun _ ↦ ?_
    exact Yields.pure rfl
  have hfailure (e : Failure) : Yields (fun r : Restored ↦ r.status = "success") (w.onFailure e) :=
    fun s r t h ↦ by
      have hret := (onFailure_keeps (w := w) e s).1
      rw [h] at hret
      cases hret
  have harchive : Yields (fun r : Restored ↦ r.status = "success")
      (w.restoreArchive a passphrase) := by
    refine Yields.bind fun metadata ↦ Yields.bind fun _ ↦ Yields.bind fun _ ↦ ?_
    cases w.unwrap a.wrappedKey passphrase with
    | error e => exact Yields.raise _
    | ok rawKey => exact Yields.bind fun _ ↦ hall.attempt hfailure
  refine Yields.bind fun seen ↦ ?_
  cases seen
  · exact Yields.bind fun _ ↦ Yields.bind fun _ ↦ harchive.ensuring
  · exact Yields.raise _

end

/-- All of the dump is replayed where all lines are kept and `psql` gets through all of them. -/
theorem take_sanitised_eq_iff {dump : List Line} {n : Nat} :
    (sanitised dump).take n = dump ↔
      dump.length ≤ n ∧ ∀ line ∈ dump, isTransactionTimeout line = false := by
  constructor
  · intro h
    have hlen := congrArg List.length h
    have hle := length_filter_le (fun line ↦ !isTransactionTimeout line) dump
    rw [length_take, sanitised] at hlen
    refine ⟨by omega, ?_⟩
    have hfull : (dump.filter fun line ↦ !isTransactionTimeout line).length = dump.length := by omega
    simpa using length_filter_eq_length_iff.mp hfull
  · rintro ⟨hn, hkept⟩
    have hall : sanitised dump = dump := filter_eq_self.mpr (by simpa using hkept)
    rw [hall, take_of_length_le hn]

section

variable {w : World W} {a : Archive W} {passphrase : List Char} {s : Installation}

theorem World.restoreBackup_of_refuses (h : w.refuses s = true) :
    (w.restoreBackup a passphrase s).1.isReturned = false ∧
      (w.restoreBackup a passphrase s).2 = s := by
  simp only [restoreBackup, isMaintenanceMode, bind, Proc.bind]
  unfold refuses at h
  cases hredis : w.fault .redis with
  | passes =>
    rw [hredis] at h
    have hset : s.maintenance = true := by simpa [Fault.isPass, Fault.isStop] using h
    simp only [hset]
    exact ⟨rfl, rfl⟩
  | raises done =>
    rw [hredis] at h
    simp [Fault.isPass, Fault.isStop] at h
  | stops done => exact ⟨rfl, rfl⟩

theorem World.restoreBackup_of_not_refuses (h : w.refuses s = false) :
    w.restoreBackup a passphrase s = w.letIn a passphrase s := by
  simp only [restoreBackup, isMaintenanceMode, bind, Proc.bind]
  unfold refuses at h
  cases hredis : w.fault .redis with
  | passes =>
    rw [hredis] at h
    have hset : s.maintenance = false := by simpa [Fault.isPass, Fault.isStop] using h
    simp only [hset]
    rfl
  | raises done => rfl
  | stops done =>
    rw [hredis] at h
    simp [Fault.isStop] at h

theorem World.letIn_stores (hlet : w.refuses s = false) :
    if w.replays a passphrase s then
      (w.letIn a passphrase s).2.stores =
        { key := w.keyLeft a passphrase s
          database := some (w.rowsLeft a)
          replayed := (sanitised a.dump).take (w.replayOf a).replayed }
    else
      (w.letIn a passphrase s).2.stores = s.stores ∨
        (w.letIn a passphrase s).2.stores.database.getD [] = [] := by
  have hneutral : ∀ p ∈ w.preparation a passphrase, p.effect = id := by
    simp [preparation, passing, surviving, Fault.point, Point.check]
  have hunpacking : ∀ p ∈ w.unpacking, p.effect = id := by
    simp [unpacking, passing, Fault.point]
  obtain ⟨hreset, hnew⟩ := w.leaves_resetting s.stores
  have hpoints : w.points a passphrase = w.preparation a passphrase ++ (w.resetting ++ (w.unpacking ++
      (w.replaying a ++ (w.clearing a ++ (w.upgrading a ++ (w.keyLoading a passphrase ++
        (w.keyOpening ++ (w.keyWriting a passphrase ++ w.ending)))))))) := by
    simp only [points, append_assoc]
  rw [leaves_fst] at hnew
  rw [(letIn_follows s).2, hpoints, leaves_neutral_append hneutral, leaves_append_snd,
    leaves_neutral_append hunpacking, replays, hlet, all_append, all_append]
  by_cases hprepared : (w.preparation a passphrase).all Point.passes = true
  · by_cases hcreated : w.resetting.all Point.passes = true
    · have hempty := hnew hcreated
      by_cases hunpacked : w.unpacking.all Point.passes = true
      · rw [if_pos hprepared, if_pos hcreated, if_pos hunpacked, hempty, leaves_replaying rfl]
        simp only [hprepared, hcreated, hunpacked, Bool.not_false, Bool.true_and, keyLeft]
        split
        · rfl
        · exact Or.inr rfl
      · simp only [hprepared, hcreated, hunpacked, Bool.and_false, Bool.false_and]
        exact hreset
    · simp only [hprepared, hcreated, Bool.and_false, Bool.false_and]
      exact hreset
  · simp only [hprepared, Bool.and_false, Bool.false_and]
    exact Or.inl rfl

theorem World.replays_of_all (hlet : w.refuses s = false)
    (hall : (w.points a passphrase).all Point.passes = true) :
    w.replays a passphrase s = true := by
  simp only [points, all_append, Bool.and_eq_true, and_assoc] at hall
  obtain ⟨hprepared, hcreated, hunpacked, hreplayed, -⟩ := hall
  have hpass : (w.fault .replay).isPass = true := by simpa [replaying, Fault.point] using hreplayed
  simp only [replays, hlet, all_append, hprepared, hcreated, hunpacked,
    Fault.acts_of_isPass hpass, Bool.not_false, Bool.and_true]

theorem World.restoreBackup_fits_iff (hs : s.stores.Fits) :
    (w.restoreBackup a passphrase s).2.stores.Fits ↔ w.KeyFits a passphrase s := by
  cases hlet : w.refuses s with
  | true =>
    rw [(restoreBackup_of_refuses hlet).2]
    exact iff_of_true hs fun hreplays ↦ by simp [replays, hlet] at hreplays
  | false =>
    have hstores := @letIn_stores W w a passphrase s hlet
    rw [restoreBackup_of_not_refuses hlet]
    cases hreplays : w.replays a passphrase s with
    | true =>
      rw [hreplays, if_pos rfl] at hstores
      rw [hstores, KeyFits, hreplays]
      exact ⟨fun h _ ↦ h, fun h ↦ h rfl⟩
    | false =>
      rw [hreplays, if_neg Bool.false_ne_true] at hstores
      refine iff_of_true ?_ fun h ↦ by simp [hreplays] at h
      rcases hstores with hsame | hempty
      · rwa [hsame]
      · intro line hline
        rw [hempty] at hline
        cases hline

/-- A restore that says that it has succeeded has replayed all of the dump where `psql` does. -/
theorem World.restoreBackup_replayed_iff :
    (∀ r, (w.restoreBackup a passphrase s).1 = .returned r → r.status = "success" →
        (w.restoreBackup a passphrase s).2.stores.replayed = a.dump) ↔
      w.ReplaysAll a passphrase s := by
  cases hlet : w.refuses s with
  | true =>
    have hret := (@restoreBackup_of_refuses W w a passphrase s hlet).1
    refine iff_of_true (fun r hr ↦ ?_) fun h ↦ by simp [hlet] at h
    rw [hr] at hret
    cases hret
  | false =>
    have hstores := @letIn_stores W w a passphrase s hlet
    have hyields := @restoreBackup_yields W w a passphrase s
    have hret := (@letIn_follows W w a passphrase s).1
    rw [leaves_fst] at hret
    rw [restoreBackup_of_not_refuses hlet] at hyields ⊢
    unfold ReplaysAll
    rw [hlet]
    constructor
    · intro h _ hall
      rw [hall] at hret
      rw [replays_of_all hlet hall, if_pos rfl] at hstores
      rcases hend : w.letIn a passphrase s with ⟨o, t⟩
      rw [hend] at h hret hstores hyields
      cases o with
      | returned r =>
        have hreplayed := h r rfl (hyields r t rfl)
        rw [hstores] at hreplayed
        obtain ⟨hlen, hkept⟩ := take_sanitised_eq_iff.mp hreplayed
        exact ⟨Or.inr hlen, hkept⟩
      | raised e => cases hret
      | stopped => cases hret
    · intro h r hr _
      rw [hr] at hret
      have hall : (w.points a passphrase).all Point.passes = true := hret.symm
      obtain ⟨hcode, hkept⟩ := h rfl hall
      rw [replays_of_all hlet hall, if_pos rfl] at hstores
      rw [hstores]
      refine take_sanitised_eq_iff.mpr ⟨?_, hkept⟩
      have hsame : sanitised a.dump = a.dump := filter_eq_self.mpr (by simpa using hkept)
      rcases hcode with hzero | hlen
      · have hcomplete : (sanitised a.dump).length ≤ (w.replayOf a).replayed :=
          w.psql.complete _ hzero
        rwa [hsame] at hcomplete
      · exact hlen

/-- Restore keeps key and data together, and says that it has succeeded only if all of the dump was
replayed, exactly where the key that is left fits the rows that are left, and `psql` gets through
the dump where nothing goes wrong. -/
theorem restore_keeps_iff (w : World W) (a : Archive W) (passphrase : List Char) (s : Installation)
    (hs : s.stores.Fits) :
    (w.restoreBackup a passphrase s).2.stores.Fits ∧
        (∀ r, (w.restoreBackup a passphrase s).1 = .returned r → r.status = "success" →
          (w.restoreBackup a passphrase s).2.stores.replayed = a.dump) ↔
      w.KeyFits a passphrase s ∧ w.ReplaysAll a passphrase s :=
  and_congr (World.restoreBackup_fits_iff hs) World.restoreBackup_replayed_iff

end

/-! ### An archive under another key -/

/-- Everything goes well but for one step; `psql` replays the first `n` lines, and says `stderr`
where there are more. -/
def failingAt (p : Option Step) (n : Nat) (stderr : String) : World Bytes where
  fault q := if p = some q then .raises false else .passes
  text _ := ""
  exited _ := true
  unwrap wrapped _ := .ok wrapped
  psql :=
    { run := fun lines ↦
        if lines.length ≤ n then ⟨0, [], lines.length⟩ else ⟨2, stderr.toList, n⟩
      complete := fun lines h ↦ by
        split
        · exact Nat.le_refl _
        · next hn =>
          rw [if_neg hn] at h
          cases h }
  cacheCleared := true
  processKey := [1]
  revisions := ["head"]
  codeHead := "head"
  migrate _ lines := lines
  version := "unknown"

/-- An archive with one encrypted value, from an installation with another key. -/
def foreignArchive : Archive Bytes where
  members := required
  metadata := {}
  dump := [⟨"CREATE TABLE secrets".toList, none⟩, ⟨"gAAAA".toList, some [2]⟩]
  wrappedKey := [2]

def installation : Installation where
  stores := { key := some [1], database := some [⟨"gAAAA".toList, some [1]⟩] }

/-- The migration fails, and the database is left with the new rows and the old key. -/
theorem restored_under_old_key : ¬ ∀ (w : World Bytes) (a : Archive Bytes) (passphrase : List Char)
    (s : Installation), s.stores.Fits → (w.restoreBackup a passphrase s).2.stores.Fits ∧
      (∀ r, (w.restoreBackup a passphrase s).1 = .returned r → r.status = "success" →
        (w.restoreBackup a passphrase s).2.stores.replayed = a.dump) := by
  intro h
  have hfits := (h (failingAt (some .upgrade) 2 "") foreignArchive [] installation (by decide)).1
  revert hfits
  decide

/-- The connection is lost behind the first line, and the restore says that it has succeeded. -/
example :
    let ended := (failingAt none 1 "server closed the connection unexpectedly").restoreBackup
      foreignArchive [] installation
    ended.1.isReturned = true ∧ ended.2.stores.replayed.length = 1 := by
  decide

/-- Where nothing goes wrong, the restore goes through, and the key of the archive is there. -/
theorem foreign_key_restored :
    ((failingAt none 2 "").restoreBackup foreignArchive [] installation).2.stores.Fits ∧
      (∀ r, ((failingAt none 2 "").restoreBackup foreignArchive [] installation).1 = .returned r →
        r.status = "success" →
          ((failingAt none 2 "").restoreBackup foreignArchive [] installation).2.stores.replayed =
            foreignArchive.dump) :=
  (restore_keeps_iff (failingAt none 2 "") foreignArchive [] installation (by decide)).mpr
    ⟨by decide, by decide⟩

end BnkForge.Backup
