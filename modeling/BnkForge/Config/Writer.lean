import BnkForge.Lib.Sha256
import BnkForge.Secrets.Service

/-!
# The state configuration of projects

`write_backend_config` and `write_encryption_config`
(`backend/services/execution/config_writer.py:70–330`), which write the backend and the key provider
of an operation from the row of the project.
-/

namespace BnkForge.Config

open Python Secrets

/-! ### The rows -/

/-- A row of `project_backend_configs`. -/
structure BackendConfig where
  s3StateBucket : Option Text := none
  s3StateKeyPrefix : Option Text := none
  s3StateRegion : Option Text := none
  s3UseNativeLocking : Bool := true
  s3DynamodbTable : Option Text := none
  stateStorageProvider : Option Text := none
  s3Endpoint : Option Text := none

/-- A row of `project_encryption_configs`. -/
structure EncryptionConfig where
  stateEncryptionEnabled : Bool := true
  encryptionProvider : Option Text := some "pbkdf2".toList
  encryptionPassphraseEncrypted : Option Text := none
  encryptionKmsKeyId : Option Text := none
  encryptionKmsRegion : Option Text := none
  encryptionVaultUrl : Option Text := none
  encryptionVaultKeyName : Option Text := none
  encryptionOpenbaoAddress : Option Text := none
  encryptionOpenbaoTokenEncrypted : Option Text := none
  encryptionOpenbaoTransitKey : Option Text := none

/-- A row of `projects`, with the columns that the extracted tables replace and its rows in them. -/
structure Project where
  id : Nat
  name : Text
  cloudProvider : Option Text := none
  backendType : Option Text := some "local".toList
  region : Option Text := none
  backendColumns : BackendConfig := {}
  backendConfig : Option BackendConfig := none
  encryptionColumns : EncryptionConfig := {}
  encryptionConfig : Option EncryptionConfig := none

/-- A row of `project_modules`. -/
structure ProjectModule where
  id : Nat
  projectId : Nat
  pathInProject : Text
  deriving DecidableEq

/-- `value or default`. -/
def textOr (value : Option Text) (default : Text) : Text := (value.filter (· ≠ [])).getD default

def isSet (value : Option Text) : Bool := value.any (· ≠ [])

/-- `str(n)`. -/
def decimal (n : Nat) : Text := (toString n).toList

/-- `project.backend_config` if there is one, else the project, which has no columns for the storage
provider and the endpoint. -/
def Project.backend (p : Project) : BackendConfig :=
  p.backendConfig.getD { p.backendColumns with stateStorageProvider := none, s3Endpoint := none }

/-- `project.encryption_config` if there is one, else the project. -/
def Project.encryption (p : Project) : EncryptionConfig := p.encryptionConfig.getD p.encryptionColumns

/-- The encryption settings are changed where they are read. -/
def Project.setEncryption (p : Project) (enc : EncryptionConfig) : Project :=
  match p.encryptionConfig with
  | some _ => { p with encryptionConfig := some enc }
  | none => { p with encryptionColumns := enc }

/-! ### The backend -/

inductive Locking
  | ibm (endpoint : Text)
  | native
  | dynamodb (table : Text)
  deriving DecidableEq

/-- The backend that is written to `backend_override.tf`. -/
inductive Backend
  | s3 (bucket key region : Text) (locking : Locking)
  | local (path : Text)
  deriving DecidableEq

def Project.usesS3 (p : Project) : Bool := p.backendType == some "s3".toList

/-- `bucket`. -/
def stateBucket (p : Project) : Text :=
  textOr p.backend.s3StateBucket (p.name ++ "-terraform-state".toList)

def prefixedName (p : Project) : Text := textOr p.backend.s3StateKeyPrefix [] ++ p.name

/-- `state_key`. -/
def stateKey (p : Project) (m : ProjectModule) : Text :=
  prefixedName p ++ '/' :: (m.pathInProject ++ "/terraform.tfstate".toList)

/-- `write_backend_config`; the default is that of `cloud.aws.default_region`. -/
def writeBackendConfig (p : Project) (m : ProjectModule) (defaultRegion : Option Text) : Backend :=
  if p.usesS3 then
    let bk := p.backend
    let region :=
      textOr bk.s3StateRegion (textOr p.region (textOr defaultRegion "us-east-1".toList))
    let stateStorageProvider := textOr bk.stateStorageProvider
      (if p.cloudProvider = some "ibm".toList then "ibm".toList else "aws".toList)
    .s3 (stateBucket p) (stateKey p m) region
      (if stateStorageProvider = "ibm".toList then
        .ibm (textOr bk.s3Endpoint
          ("https://s3.".toList ++ region ++ ".cloud-object-storage.appdomain.cloud".toList))
      else if bk.s3UseNativeLocking then .native
      else .dynamodb (textOr bk.s3DynamodbTable "terraform-locks".toList))
  else .local ("/app/state/".toList ++ decimal p.id ++ '/' :: decimal m.id ++
    "/terraform.tfstate".toList)

/-- The bucket and the key of an S3 backend. -/
def Backend.location : Backend → Option (Text × Text)
  | .s3 bucket key _ _ => some (bucket, key)
  | .local _ => none

/-! ### The key provider -/

/-- The key provider that is written to `encryption.tf`. -/
inductive KeyProvider
  | pbkdf2 (passphrase : Option Text)
  | awsKms (keyId region : Text)
  | gcpKms (keyId : Text)
  | azureKeyVault (url keyName : Text)
  | openbao (address : Text) (token : Option Text) (key : Text)
  deriving DecidableEq

inductive ConfigError
  | valueError (message : String)
  | decryptionError
  deriving DecidableEq, Repr

def derivedPassphrase (p : Project) : Text :=
  (Sha256.hexdigest (encode ("bnk-forge-".toList ++ decimal p.id ++ '-' :: p.name))).take 32

/-- `decrypt_value`. -/
def decrypted (cipher : Cipher) (column : Option Text) : Except ConfigError (Option Text) :=
  match decryptValue cipher column with
  | .ok value => .ok value
  | .error _ => .error .decryptionError

def required (column : Option Text) (message : String) : Except ConfigError Text :=
  match column.filter (· ≠ []) with
  | some value => .ok value
  | none => .error (.valueError message)

/-- The block of a provider that is not `pbkdf2`. -/
def cloudKeyProvider (cipher : Cipher) (p : Project) (defaultRegion : Option Text) (provider : Text) :
    Except ConfigError KeyProvider := do
  let enc := p.encryption
  if provider = "aws_kms".toList then
    let keyId ← required enc.encryptionKmsKeyId "AWS KMS encryption requires kms_key_id to be set"
    return .awsKms keyId (textOr enc.encryptionKmsRegion
      (textOr p.region (textOr defaultRegion "us-east-1".toList)))
  else if provider = "gcp_kms".toList then
    return .gcpKms (← required enc.encryptionKmsKeyId
      "GCP KMS encryption requires 'encryption_kms_key_id' to be set on the project")
  else if provider = "azure_key_vault".toList then
    let url ← required enc.encryptionVaultUrl
      "Azure Key Vault encryption requires 'encryption_vault_url' to be set on the project"
    let keyName ← required enc.encryptionVaultKeyName
      "Azure Key Vault encryption requires 'encryption_vault_key_name' to be set on the project"
    return .azureKeyVault url keyName
  else if provider = "openbao".toList then
    let address ← required enc.encryptionOpenbaoAddress
      "OpenBao encryption requires 'encryption_openbao_address' to be set on the project"
    let token ← if isSet enc.encryptionOpenbaoTokenEncrypted then
        decrypted cipher enc.encryptionOpenbaoTokenEncrypted
      else pure (some [])
    return .openbao address token (textOr enc.encryptionOpenbaoTransitKey "tofu-state".toList)
  else throw (.valueError ("Unknown encryption provider: " ++ String.ofList provider ++
    ". Supported providers: pbkdf2, aws_kms, gcp_kms, azure_key_vault, openbao"))

/-- `write_encryption_config`: the key provider, and the row after it. Whether a passphrase that is
derived can be persisted depends on the session and the commit. -/
def writeEncryptionConfig (cipher : Cipher) (nonce : Nat) (persists : Bool) (p : Project)
    (defaultRegion : Option Text) : Except ConfigError (Option KeyProvider × Project) := do
  let enc := p.encryption
  if enc.stateEncryptionEnabled then
    let provider := textOr enc.encryptionProvider "pbkdf2".toList
    if provider = "pbkdf2".toList then
      if isSet enc.encryptionPassphraseEncrypted then
        return (some (.pbkdf2 (← decrypted cipher enc.encryptionPassphraseEncrypted)), p)
      else
        let passphrase := derivedPassphrase p
        let stored := { enc with
          encryptionPassphraseEncrypted := encryptValue cipher nonce passphrase }
        return (some (.pbkdf2 (some passphrase)), if persists then p.setEncryption stored else p)
    else return (some (← cloudKeyProvider cipher p defaultRegion provider), p)
  else return (none, p)

end BnkForge.Config
