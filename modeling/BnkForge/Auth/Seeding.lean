import BnkForge.Auth.Accounts
import BnkForge.Lib.Interleave
import Mathlib.Data.List.Nodup

/-!
# Seeding the credentials

`seed_auth_step` (`backend/startup_steps.py:215–311`) and the transactions that it makes
(`backend/services/auth_service.py:356–791`). Any number of replicas run it side by side. The row lock
and the unique user name put the transactions in an order; a file may fail to be written and a
transaction may fail to commit.
-/

namespace BnkForge.Auth

open Interleave Transition Python

/-! ### The store -/

/-- The users, the credential file and what is recorded of the password of `admin`: the text that was
generated for it, while it has not been changed since. The program does not keep the record. -/
structure AuthStore where
  users : List User
  credentialFile : Option Text
  nextUserId : Nat
  generatedAdmin : Option Text

/-- `passlib`: the hash of a password with a salt, and the check of a password. -/
structure PasswordHashing where
  hashPassword : Nat → Text → Text
  verifyPassword : Text → Text → Bool

/-- The settings of a replica. -/
structure SeedConfig where
  defaultAdminPassword : Option Text := none
  defaultAdminMustChange : Bool := true
  mcpServiceUsername : Text := "mcp".toList
  mcpServicePassword : Option Text := none
  deriving DecidableEq, Repr

/-- What becomes of the write of the credential file: it is written, or it fails before the file is
opened, or after some of the characters. -/
inductive FileOutcome
  | written
  | unopened
  | cut (count : Nat)
  deriving DecidableEq, Repr

/-- What chance and failures decide in a transaction. -/
structure SeedChoice where
  salt : Nat
  generated : Text
  scrubbed : Nat → Text
  file : FileOutcome
  commits : Bool

/-- What a transaction raises: `GeneratedCredentialPersistError`, a `ValueError` or an error of the
database. -/
inductive SeedError
  | persist
  | value
  | database
  deriving DecidableEq, Repr

/-! ### The transactions -/

def adminName : Text := "admin".toList

/-- `_is_reserved_human_username`. -/
def isReservedHumanUsername (username : Text) : Bool := lower (strip username) = adminName

/-- The password that is configured for `admin`, unless it is a shipped default. -/
def configuredAdmin (config : SeedConfig) : Option Text :=
  config.defaultAdminPassword.filter fun p ↦ p ≠ [] ∧ p ∉ adminKnownDefaultPasswords

/-- `_mcp_pw_usable`, with the password. -/
def usableMcp (config : SeedConfig) : Option Text :=
  config.mcpServicePassword.filter fun p ↦ p ≠ [] ∧ p ∉ mcpKnownDefaultPasswords

/-- `_persist_generated_password`: whether it succeeds, and the file. -/
def persistGeneratedPassword (password : Text) (outcome : FileOutcome) (file : Option Text) :
    Bool × Option Text :=
  match outcome with
  | .written => (true, some (password ++ ['\n']))
  | .unopened => (false, file)
  | .cut count => (false, some ((password ++ ['\n']).take count))

variable (hashing : PasswordHashing)

def holdsOneOf (passwords : List Text) (user : User) : Bool :=
  passwords.any fun p ↦ hashing.verifyPassword p user.hashedPassword

def AuthStore.updateNamed (s : AuthStore) (username : Text) (f : User → User) : AuthStore :=
  { s with users := s.users.map fun u ↦ if u.username = username then f u else u }

/-- A new row, as `create_user` makes it. -/
def AuthStore.insertUser (s : AuthStore) (user : User) : AuthStore :=
  { s with users := s.users ++ [{ user with id := s.nextUserId }], nextUserId := s.nextUserId + 1 }

/-- The password of `admin` with the new hash, to be changed at the next login. -/
def AuthStore.rotateTo (s : AuthStore) (hashed : Text) : AuthStore :=
  s.updateNamed adminName fun u ↦ { u with hashedPassword := hashed, mustChangePassword := true }

/-- `_rotate_known_default_admin`. -/
def rotateKnownDefaultAdmin (config : SeedConfig) (c : SeedChoice) (s : AuthStore) :
    Except SeedError Unit × AuthStore :=
  match s.users.find? fun u ↦ u.username == adminName with
  | none => (.ok (), s)
  | some admin =>
    if !holdsOneOf hashing adminKnownDefaultPasswords admin then (.ok (), s)
    else
      match configuredAdmin config with
      | some configured =>
        if c.commits then
          (.ok (), { s.rotateTo (hashing.hashPassword c.salt configured) with generatedAdmin := none })
        else (.error .database, s)
      | none =>
        match persistGeneratedPassword c.generated c.file s.credentialFile with
        | (false, file) => (.error .persist, { s with credentialFile := file })
        | (true, file) =>
          if c.commits then
            (.ok (), { s.rotateTo (hashing.hashPassword c.salt c.generated) with
              credentialFile := file, generatedAdmin := some c.generated })
          else (.error .database, { s with credentialFile := file })

/-- The e-mail of the account of a user name. -/
def localEmail (username : Text) : Text := username ++ "@bnk-forge.local".toList

/-- A row has the user name or the e-mail. -/
def AuthStore.taken (s : AuthStore) (username : Text) : Bool :=
  s.users.any fun u ↦ u.username == username || u.email == localEmail username

/-- `seed_admin_user` where it has counted no users. Another replica may have been faster. -/
def createAdmin (config : SeedConfig) (c : SeedChoice) (s : AuthStore) :
    Except SeedError Unit × AuthStore :=
  if s.taken adminName then (.ok (), s)
  else
    let row (password : Text) : User := ⟨0, adminName, localEmail adminName,
      hashing.hashPassword c.salt password, .admin, true, config.defaultAdminMustChange, false⟩
    match configuredAdmin config with
    | some configured =>
      if c.commits then (.ok (), { s.insertUser (row configured) with generatedAdmin := none })
      else (.error .database, s)
    | none =>
      match persistGeneratedPassword c.generated c.file s.credentialFile with
      | (false, file) => (.error .persist, { s with credentialFile := file })
      | (true, file) =>
        if c.commits then
          (.ok (), { s.insertUser (row c.generated) with
            credentialFile := file, generatedAdmin := some c.generated })
        else (.error .database, { s with credentialFile := file })

/-- The rows that `disable_stale_service_user` disables. -/
def isStale (skipUsername : Option Text) (u : User) : Bool :=
  u.isActive && u.isServiceAccount && skipUsername != some u.username

/-- `disable_stale_service_user`. -/
def disableStaleServiceUser (skipUsername : Option Text) (c : SeedChoice) (s : AuthStore) :
    Except SeedError Unit × AuthStore :=
  if !s.users.any (isStale skipUsername) then (.ok (), s)
  else if !c.commits then (.error .database, s)
  else (.ok (), { s with
    users := s.users.map fun u ↦
      if isStale skipUsername u then
        { u with isActive := false, hashedPassword := hashing.hashPassword c.salt (c.scrubbed u.id) }
      else u
    generatedAdmin :=
      ((s.users.find? fun u ↦ u.username == adminName && isStale skipUsername u).map
        fun u ↦ c.scrubbed u.id).or s.generatedAdmin })

/-- The row of a release that did not flag service accounts yet. -/
def isLegacyMcp (u : User) : Bool :=
  u.username == "mcp".toList && u.email == "mcp@bnk-forge.local".toList

/-- `ensure_service_user`, called with a usable password. -/
def ensureServiceUser (username password : Text) (c : SeedChoice) (s : AuthStore) :
    Except SeedError Unit × AuthStore :=
  if isReservedHumanUsername username then (.error .value, s)
  else if password = [] ∨ password ∈ mcpKnownDefaultPasswords then (.error .value, s)
  else
    let hashed := hashing.hashPassword c.salt password
    match s.users.find? fun u ↦ u.username == username with
    | none =>
      if s.taken username || !c.commits then (.error .database, s)
      else (.ok (), s.insertUser ⟨0, username, localEmail username, hashed, .admin, true, false, true⟩)
    | some user =>
      if !user.isServiceAccount &&
          !(isLegacyMcp user && holdsOneOf hashing mcpKnownDefaultPasswords user) then
        (.error .value, s)
      else if !c.commits then (.error .database, s)
      else (.ok (), s.updateNamed username fun u ↦
        { u with
          hashedPassword := hashed
          mustChangePassword := !u.isServiceAccount && u.mustChangePassword
          isActive := true
          isServiceAccount := true })

/-! ### The step -/

inductive SeedOp
  | countUsers
  | createAdmin (config : SeedConfig)
  | rotateAdmin (config : SeedConfig)
  | disableStale (config : SeedConfig)
  | ensureService (username password : Text)

abbrev SeedRes : SeedOp → Type
  | .countUsers => Nat
  | .createAdmin _ | .rotateAdmin _ | .disableStale _ | .ensureService _ _ => Except SeedError Unit

/-- The user name that `seed_auth_step` spares. -/
def skipUsername (config : SeedConfig) : Option Text :=
  (usableMcp config).map fun _ ↦ config.mcpServiceUsername

/-- `secrets.token_urlsafe(18)` and `secrets.token_urlsafe(32)` have 24 and 43 characters. -/
def SeedChoice.Drawn (c : SeedChoice) (s : AuthStore) : Prop :=
  c.generated.length = 24 ∧ ∀ u ∈ s.users, (c.scrubbed u.id).length = 43

instance (c : SeedChoice) (s : AuthStore) : Decidable (c.Drawn s) :=
  inferInstanceAs (Decidable (_ ∧ _))

def transaction (c : SeedChoice) (s : AuthStore) : (o : SeedOp) → SeedRes o × AuthStore
  | .countUsers => (s.users.length, s)
  | .createAdmin config => createAdmin hashing config c s
  | .rotateAdmin config => rotateKnownDefaultAdmin hashing config c s
  | .disableStale config => disableStaleServiceUser hashing (skipUsername config) c s
  | .ensureService username password => ensureServiceUser hashing username password c s

/-- What the database answers a replica. -/
def seedHandle {ι : Type} : Handler AuthStore ι SeedChoice SeedOp SeedRes :=
  fun _ o c s ↦ if c.Drawn s then some (transaction hashing c s o) else none

abbrev SeedProg : Type → Type := Prog SeedOp SeedRes

/-- `seed_admin_user`. -/
def seedAdminUser (config : SeedConfig) : SeedProg (Except SeedError Unit) := do
  let existingUsers : Nat ← Prog.call SeedOp.countUsers
  if 0 < existingUsers then Prog.call (SeedOp.rotateAdmin config)
  else Prog.call (SeedOp.createAdmin config)

/-- The reconciliation of the service account: a `ValueError` is logged. -/
def reconcileService (config : SeedConfig) : SeedProg (Except SeedError Unit) :=
  match usableMcp config with
  | none => return .ok ()
  | some password => do
    let answer : Except SeedError Unit ←
      Prog.call (SeedOp.ensureService config.mcpServiceUsername password)
    match answer with
    | .error .value => return .ok ()
    | answer => return answer

/-- `seed_auth_step`. -/
def seedAuthStep (config : SeedConfig) : SeedProg (Except SeedError Unit) := do
  let seeded : Except SeedError Unit ← seedAdminUser config
  match seeded with
  | .error e => return .error e
  | .ok () =>
    let disabled : Except SeedError Unit ← Prog.call (SeedOp.disableStale config)
    match disabled with
    | .error e => return .error e
    | .ok () => reconcileService config

end BnkForge.Auth
