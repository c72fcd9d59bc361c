import BnkForge.Lib.Base64
import BnkForge.Lib.Transition
import Mathlib.Logic.Function.Basic
import Mathlib.Data.List.Perm.Basic

/-!
# Project secrets

`SecretsService` (`backend/services/secrets_service.py:102–393`) with `encrypt_value` and
`decrypt_value` (`backend/core/encryption.py:108–132`): secrets are created, updated, deleted and
created again, and for an execution the ones of a module are decrypted into files below the work
directory and into variables.
-/

namespace BnkForge.Secrets

open Python

abbrev Text := List Char

/-! ### Encryption -/

/-- `Fernet` of the `cryptography` package with the key in use: each encryption draws its own
initialisation vector, and what was encrypted is decrypted again. -/
structure Cipher where
  encrypt : Nat → Text → Text
  decrypt : Text → Option Text
  decrypt_encrypt : ∀ n text, decrypt (encrypt n text) = some text
  encrypt_ne_nil : ∀ n text, encrypt n text ≠ []

def markingCipher : Cipher where
  encrypt _ text := 'g' :: text
  decrypt
    | 'g' :: text => some text
    | _ => none
  decrypt_encrypt _ _ := rfl
  encrypt_ne_nil _ _ := nofun

/-- What `prepare_secrets_for_execution` raises. -/
inductive PrepareError
  | decryptionError
  /-- `base64.b64decode(None)`. -/
  | typeError
  | binasciiError
  /-- The file cannot be opened. -/
  | osError
  deriving DecidableEq, Repr

/-- `encrypt_value`: nothing is encrypted to nothing. -/
def encryptValue (cipher : Cipher) (nonce : Nat) (value : Text) : Option Text :=
  if value = [] then none else some (cipher.encrypt nonce value)

/-- `decrypt_value`. -/
def decryptValue (cipher : Cipher) : Option Text → Except PrepareError (Option Text)
  | none => .ok none
  | some encrypted =>
    if encrypted = [] then .ok none
    else
      match cipher.decrypt encrypted with
      | some value => .ok (some value)
      | none => .error .decryptionError

/-! ### The table -/

/-- `secret_type`. -/
inductive SecretType
  | file | value
  deriving DecidableEq, Repr

/-- A row of `project_secrets`. -/
structure ProjectSecret where
  id : Nat
  projectId : Nat
  name : Text
  isActive : Bool := true
  secretType : SecretType := .value
  filename : Option Text := none
  fileContentEncrypted : Option Text := none
  valueEncrypted : Option Text := none
  targetModulePath : Option Text := none
  targetVariableName : Option Text := none
  deriving DecidableEq, Repr

/-- What a secret was last given. -/
inductive Content
  | file (bytes : Bytes)
  | value (text : Text)
  deriving DecidableEq, Repr

/-- The table, and for each row what it was last given, which no function reads. -/
structure Vault where
  rows : List ProjectSecret
  nextId : Nat
  contents : Nat → Content

def Vault.empty : Vault := ⟨[], 0, fun _ ↦ .value []⟩

namespace Vault

variable (v : Vault)

/-- `get_secret`. -/
def getSecret (projectId id : Nat) : Option ProjectSecret :=
  v.rows.find? fun r ↦ r.id == id && r.projectId == projectId && r.isActive

/-- `get_secret_by_name`. -/
def getSecretByName (projectId : Nat) (name : Text) : Option ProjectSecret :=
  v.rows.find? fun r ↦ r.projectId == projectId && r.name == name && r.isActive

def put (row : ProjectSecret) : Vault :=
  { v with rows := v.rows.map fun r ↦ if r.id = row.id then row else r }

def record (id : Nat) (content : Content) : Vault :=
  { v with contents := Function.update v.contents id content }

def add (row : ProjectSecret) : Vault :=
  { v with rows := v.rows ++ [{ row with id := v.nextId }], nextId := v.nextId + 1 }

end Vault

/-- The fields that an upload names. -/
structure Target where
  modulePath : Option Text := none
  variableName : Option Text := none
  deriving DecidableEq, Repr

/-- `_upsert_secret`: an active secret of the name is an error, a deleted one is reactivated. -/
def upsertSecret (projectId : Nat) (name : Text) (fields : ProjectSecret → ProjectSecret)
    (content : Content) (v : Vault) : Vault :=
  if (v.getSecretByName projectId name).isSome then v
  else
    match v.rows.find? fun r ↦ r.projectId == projectId && r.name == name && !r.isActive with
    | some inactive => (v.put (fields { inactive with isActive := true })).record inactive.id content
    | none => (v.add (fields { id := 0, projectId := projectId, name := name })).record v.nextId content

def fileFields (cipher : Cipher) (nonce : Nat) (filename : Option Text) (content : Bytes)
    (target : Target) (r : ProjectSecret) : ProjectSecret :=
  { r with
    secretType := .file
    filename := filename
    fileContentEncrypted := encryptValue cipher nonce (b64encode content)
    targetModulePath := target.modulePath
    targetVariableName := target.variableName
    valueEncrypted := none }

def valueFields (cipher : Cipher) (nonce : Nat) (value : Text) (target : Target) (r : ProjectSecret) :
    ProjectSecret :=
  { r with
    secretType := .value
    valueEncrypted := encryptValue cipher nonce value
    targetModulePath := target.modulePath
    targetVariableName := target.variableName
    fileContentEncrypted := none
    filename := none }

/-- `create_file_secret`. -/
def createFileSecret (cipher : Cipher) (nonce projectId : Nat) (name : Text) (filename : Option Text)
    (content : Bytes) (target : Target) : Vault → Vault :=
  upsertSecret projectId name (fileFields cipher nonce filename content target) (.file content)

/-- `create_value_secret`. -/
def createValueSecret (cipher : Cipher) (nonce projectId : Nat) (name value : Text) (target : Target) :
    Vault → Vault :=
  upsertSecret projectId name (valueFields cipher nonce value target) (.value value)

/-- The targets that an update gives; what it leaves out stays. -/
def retarget (target : Target) (r : ProjectSecret) : ProjectSecret :=
  { r with
    targetModulePath := target.modulePath.or r.targetModulePath
    targetVariableName := target.variableName.or r.targetVariableName }

/-- `update_file_secret`. -/
def updateFileSecret (cipher : Cipher) (nonce projectId id : Nat)
    (file : Option (Option Text × Bytes)) (target : Target) (v : Vault) : Vault :=
  match v.getSecret projectId id with
  | none => v
  | some secret =>
    if secret.secretType ≠ .file then v
    else
      match file with
      | none => v.put (retarget target secret)
      | some (filename, content) =>
        (v.put (retarget target
          { secret with
            filename := filename
            fileContentEncrypted := encryptValue cipher nonce (b64encode content) })).record id
          (.file content)

/-- `update_value_secret`. -/
def updateValueSecret (cipher : Cipher) (nonce projectId id : Nat) (value : Option Text)
    (target : Target) (v : Vault) : Vault :=
  match v.getSecret projectId id with
  | none => v
  | some secret =>
    if secret.secretType ≠ .value then v
    else
      match value with
      | none => v.put (retarget target secret)
      | some text =>
        (v.put (retarget target
          { secret with valueEncrypted := encryptValue cipher nonce text })).record id (.value text)

/-- `delete_secret`. -/
def deleteSecret (projectId id : Nat) (v : Vault) : Vault :=
  match v.getSecret projectId id with
  | none => v
  | some secret => v.put { secret with isActive := false }

/-- The operations on the secrets, and the table coming back in another order. -/
inductive Event
  | createFile (nonce projectId : Nat) (name : Text) (filename : Option Text) (content : Bytes)
      (target : Target)
  | createValue (nonce projectId : Nat) (name value : Text) (target : Target)
  | updateFile (nonce projectId id : Nat) (file : Option (Option Text × Bytes)) (target : Target)
  | updateValue (nonce projectId id : Nat) (value : Option Text) (target : Target)
  | delete (projectId id : Nat)
  | reorder (rows : List ProjectSecret)

/-- One operation. -/
def vaultStep (cipher : Cipher) (v : Vault) : Event → Option Vault
  | .createFile nonce projectId name filename content target =>
    some (createFileSecret cipher nonce projectId name filename content target v)
  | .createValue nonce projectId name value target =>
    some (createValueSecret cipher nonce projectId name value target v)
  | .updateFile nonce projectId id file target =>
    some (updateFileSecret cipher nonce projectId id file target v)
  | .updateValue nonce projectId id value target =>
    some (updateValueSecret cipher nonce projectId id value target v)
  | .delete projectId id => some (deleteSecret projectId id v)
  | .reorder rows => if rows.Perm v.rows then some { v with rows := rows } else none

/-! ### The work directory -/

/-- A place in the file system: the names on the way to it. -/
abbrev Location := List Text

structure FileSystem where
  isDir : Location → Bool
  canOpen : Location → Bool
  files : Location → Option Bytes

/-- `work_dir` and where it is. -/
structure WorkDir where
  path : Text
  location : Location
  deriving DecidableEq, Repr

/-- `os.path.join(a, b)`. -/
def joinPath (a b : Text) : Text :=
  if ['/'].isPrefixOf b then b
  else if a = [] ∨ a.getLast? = some '/' then a ++ b
  else a ++ '/' :: b

/-- `os.path.join(work_dir, "secrets")`. -/
def WorkDir.secretsDir (w : WorkDir) : Text := joinPath w.path "secrets".toList

/-- The place of `work_dir/secrets`. -/
def WorkDir.secretsAt (w : WorkDir) : Location := w.location ++ ["secrets".toList]

/-- `os.makedirs`. -/
def FileSystem.makedirs (fs : FileSystem) (at_ : Location) : FileSystem :=
  { fs with isDir := fun l ↦ fs.isDir l || l.isPrefixOf at_ }

def FileSystem.walk (fs : FileSystem) : Location → List Text → Option Location
  | here, [] => some here
  | here, part :: parts =>
    if part = [] ∨ part = ['.'] then fs.walk here parts
    else if part = ['.', '.'] then fs.walk here.dropLast parts
    else if fs.isDir (here ++ [part]) then fs.walk (here ++ [part]) parts
    else none

/-- The place that `open(path, "wb")` writes to, `none` where it raises: the way there has to exist,
and its end is a name. -/
def FileSystem.locate (fs : FileSystem) (here : Location) (filename : Text) : Option Location :=
  let start := if ['/'].isPrefixOf filename then [] else here
  let parts := filename.splitOn '/'
  let last := parts.getLastD []
  if last = [] ∨ last = ['.'] ∨ last = ['.', '.'] ∨ Char.ofNat 0 ∈ filename then none
  else
    (fs.walk start parts.dropLast).bind fun dir ↦
      if fs.isDir (dir ++ [last]) || !fs.canOpen (dir ++ [last]) then none else some (dir ++ [last])

/-! ### Preparing an execution -/

/-- `a or b` of a text that may be missing. -/
def orName (text : Option Text) (other : Text) : Text :=
  match text with
  | none => other
  | some t => if t = [] then other else t

def present (text : Option Text) : Option Text := text.filter fun t ↦ !t.isEmpty

namespace ProjectSecret

variable (s : ProjectSecret)

def fileName : Text := orName s.filename s.name

def variableName : Text := orName s.targetVariableName s.name

def skippedFor (modulePath : Option Text) : Bool :=
  match present modulePath, present s.targetModulePath with
  | some path, some target => target != path
  | _, _ => false

end ProjectSecret

/-- `get_decrypted_file_content`. -/
def getDecryptedFileContent (cipher : Cipher) (s : ProjectSecret) : Except PrepareError Bytes :=
  match decryptValue cipher s.fileContentEncrypted with
  | .error e => .error e
  | .ok none => .error .typeError
  | .ok (some text) =>
    match b64decode text with
    | none => .error .binasciiError
    | some content => .ok content

/-- `get_decrypted_value`. -/
def getDecryptedValue (cipher : Cipher) (s : ProjectSecret) : Except PrepareError (Option Text) :=
  decryptValue cipher s.valueEncrypted

/-- What has been prepared: the variables, of which one may be set to `None`, the paths, and the
files. -/
structure Prepared where
  values : Text → Option (Option Text)
  filePaths : List Text
  files : Location → Option Bytes

/-- A variable is set. -/
def Prepared.assign (out : Prepared) (name : Text) (value : Option Text) : Prepared :=
  { out with values := Function.update out.values name (some value) }

/-- The body of the loop for a secret that is not left out. -/
def deliver (cipher : Cipher) (w : WorkDir) (fs : FileSystem) (out : Prepared) (s : ProjectSecret) :
    Except PrepareError Prepared :=
  match s.secretType with
  | .file =>
    let filePath := joinPath w.secretsDir s.fileName
    match getDecryptedFileContent cipher s with
    | .error e => .error e
    | .ok content =>
      match fs.locate w.secretsAt s.fileName with
      | none => .error .osError
      | some location =>
        let written : Prepared :=
          { out with
            filePaths := out.filePaths ++ [filePath]
            files := Function.update out.files location (some content) }
        match present s.targetVariableName with
        | some variableName => .ok (written.assign variableName (some filePath))
        | none => .ok written
  | .value =>
    match getDecryptedValue cipher s with
    | .error e => .error e
    | .ok value => .ok (out.assign s.variableName value)

/-- `prepare_secrets_for_execution`. -/
def prepareSecretsForExecution (cipher : Cipher) (v : Vault) (projectId : Nat) (w : WorkDir)
    (modulePath : Option Text) (fs : FileSystem) : Except PrepareError Prepared :=
  (v.rows.filter fun r ↦ r.projectId == projectId && r.isActive).foldlM
    (fun out s ↦
      if s.skippedFor modulePath then .ok out
      else deliver cipher w (fs.makedirs w.secretsAt) out s)
    ⟨fun _ ↦ none, [], fs.files⟩

end BnkForge.Secrets
