import BnkForge.Config.Writer
import BnkForge.Lib.HclPaste
import BnkForge.Lib.ExceptResult

/-!
# The literals of generated HCL

The texts of `backend_override.tf` and `encryption.tf`. The settings are pasted between quotes as they
are, without escaping, so the files mean what is configured only for plain settings
(`filesCarry_iff`).
-/

namespace BnkForge.Config

open Secrets ExceptResult List
open Hcl hiding Text

/-! ### The texts -/

/-- The layout of an S3 backend on IBM Cloud. -/
def ibmLayout : Layout where
  head := "\nterraform \x7b\n  backend \"s3\" \x7b\n    bucket                      = "
  gaps :=
    [("", "    key                         = "),
      ("", "    region                      = "),
      ("", "    encrypt                     = true\n    use_lockfile                = true\n    endpoints                   = \x7b s3 = "),
      (" \x7d", "    skip_region_validation      = true\n    skip_credentials_validation = true\n    skip_requesting_account_id  = true\n")]
  tail := "  \x7d\n\x7d\n"

/-- The layout of an S3 backend that locks its state itself. -/
def nativeLayout : Layout where
  head := "\nterraform \x7b\n  backend \"s3\" \x7b\n    bucket       = "
  gaps :=
    [("", "    key          = "),
      ("", "    region       = "),
      ("", "    encrypt      = true\n    use_lockfile = true\n")]
  tail := "  \x7d\n\x7d\n"

/-- The layout of an S3 backend that is locked by a table. -/
def dynamodbLayout : Layout where
  head := "\nterraform \x7b\n  backend \"s3\" \x7b\n    bucket         = "
  gaps :=
    [("", "    key            = "),
      ("", "    region         = "),
      ("", "    encrypt        = true\n    dynamodb_table = "),
      ("", "")]
  tail := "  \x7d\n\x7d\n"

def localLayout : Layout where
  head := "\nterraform \x7b\n  backend \"local\" \x7b\n    path = "
  gaps := [("", "")]
  tail := "  \x7d\n\x7d\n"

def Backend.layout : Backend → Layout
  | .s3 _ _ _ (.ibm _) => ibmLayout
  | .s3 _ _ _ .native => nativeLayout
  | .s3 _ _ _ (.dynamodb _) => dynamodbLayout
  | .local _ => localLayout

def Backend.values : Backend → List Text
  | .s3 bucket key region (.ibm endpoint) => [bucket, key, region, endpoint]
  | .s3 bucket key region .native => [bucket, key, region]
  | .s3 bucket key region (.dynamodb table) => [bucket, key, region, table]
  | .local path => [path]

/-- The text of `backend_override.tf`. -/
def backendContent (b : Backend) : Text := b.layout.text b.values

def methodsBefore : String :=
  "\n    method \"unencrypted\" \"migrate\" \x7b\n    \x7d\n\n    method \"aes_gcm\" \"main\" \x7b\n      keys = key_provider."

/-- What is behind the name of the provider and its dot. -/
def methodsAfter : String := "main\n    \x7d\n"

def stateBlock : String :=
  "\n    state \x7b\n      method = method.aes_gcm.main\n      fallback \x7b\n        method = method.unencrypted.migrate\n      \x7d\n    \x7d\n"

/-- Plans are encrypted, and unencrypted ones can be read. -/
def planBlock : String :=
  "\n    plan \x7b\n      method = method.aes_gcm.main\n      fallback \x7b\n        method = method.unencrypted.migrate\n      \x7d\n    \x7d\n"

def encryptionTail (provider : String) : String :=
  methodsBefore ++ (provider ++ ("." ++ (methodsAfter ++ (stateBlock ++ (planBlock ++ "  \x7d\n\x7d\n")))))

def pbkdf2Layout : Layout where
  head := "\nterraform \x7b\n  encryption \x7b\n    key_provider \"pbkdf2\" \"main\" \x7b\n      passphrase = "
  gaps :=
    [("", "      key_length = 32\n      iterations = 200000\n      salt_length = 32\n      hash_function = \"sha256\"\n    \x7d\n")]
  tail := encryptionTail "pbkdf2"

def awsKmsLayout : Layout where
  head := "\nterraform \x7b\n  encryption \x7b\n    key_provider \"aws_kms\" \"main\" \x7b\n      kms_key_id = "
  gaps :=
    [("", "      region     = "),
      ("", "      key_spec   = \"AES_256\"\n    \x7d\n")]
  tail := encryptionTail "aws_kms"

def gcpKmsLayout : Layout where
  head := "\nterraform \x7b\n  encryption \x7b\n    key_provider \"gcp_kms\" \"main\" \x7b\n      kms_encryption_key = "
  gaps := [("", "      key_length         = 32\n    \x7d\n")]
  tail := encryptionTail "gcp_kms"

def azureKeyVaultLayout : Layout where
  head := "\nterraform \x7b\n  encryption \x7b\n    key_provider \"azure_key_vault\" \"main\" \x7b\n      vault_url = "
  gaps :=
    [("", "      key_name  = "),
      ("", "      key_type  = \"RSA-HSM\"\n    \x7d\n")]
  tail := encryptionTail "azure_key_vault"

def openbaoLayout : Layout where
  head := "\nterraform \x7b\n  encryption \x7b\n    key_provider \"openbao\" \"main\" \x7b\n      address = "
  gaps :=
    [("", "      token   = "), ("", "      key     = "), ("", "    \x7d\n")]
  tail := encryptionTail "openbao"

def KeyProvider.layout : KeyProvider → Layout
  | .pbkdf2 _ => pbkdf2Layout
  | .awsKms _ _ => awsKmsLayout
  | .gcpKms _ => gcpKmsLayout
  | .azureKeyVault _ _ => azureKeyVaultLayout
  | .openbao _ _ _ => openbaoLayout

def printed (value : Option Text) : Text := value.getD "None".toList

def KeyProvider.values : KeyProvider → List Text
  | .pbkdf2 passphrase => [printed passphrase]
  | .awsKms keyId region => [keyId, region]
  | .gcpKms keyId => [keyId]
  | .azureKeyVault url keyName => [url, keyName]
  | .openbao address token key => [address, printed token, key]

/-- The text of `encryption.tf`. -/
def encryptionContent (provider : KeyProvider) : Text := provider.layout.text provider.values

/-! ### What the files are meant to say -/

def textItem (name : String) (value : Text) : Item := .assign name.toList (.str value)

/-- An attribute with a number, a keyword or a reference. -/
def wordItem (name : String) (words : List String) : Item :=
  .assign name.toList (.words (words.map String.toList))

def block (type : String) (labels : List String) (body : Body) : Item :=
  .block type.toList (labels.map String.toList) body

/-- The attributes of all S3 backends. -/
def s3Items (bucket key region : Text) : Body :=
  [textItem "bucket" bucket, textItem "key" key, textItem "region" region,
    wordItem "encrypt" ["true"]]

/-- The body of `backend_override.tf`. -/
def backendBody : Backend → Body
  | .s3 bucket key region (.ibm endpoint) =>
    [block "terraform" [] [block "backend" ["s3"] (s3Items bucket key region ++
      [wordItem "use_lockfile" ["true"],
        .assign "endpoints".toList (.object [("s3".toList, .str endpoint)]),
        wordItem "skip_region_validation" ["true"],
        wordItem "skip_credentials_validation" ["true"],
        wordItem "skip_requesting_account_id" ["true"]])]]
  | .s3 bucket key region .native =>
    [block "terraform" [] [block "backend" ["s3"] (s3Items bucket key region ++
      [wordItem "use_lockfile" ["true"]])]]
  | .s3 bucket key region (.dynamodb table) =>
    [block "terraform" [] [block "backend" ["s3"] (s3Items bucket key region ++
      [textItem "dynamodb_table" table])]]
  | .local path => [block "terraform" [] [block "backend" ["local"] [textItem "path" path]]]

def KeyProvider.name : KeyProvider → String
  | .pbkdf2 _ => "pbkdf2"
  | .awsKms _ _ => "aws_kms"
  | .gcpKms _ => "gcp_kms"
  | .azureKeyVault _ _ => "azure_key_vault"
  | .openbao _ _ _ => "openbao"

def KeyProvider.items : KeyProvider → Body
  | .pbkdf2 passphrase =>
    [textItem "passphrase" (printed passphrase), wordItem "key_length" ["32"],
      wordItem "iterations" ["200000"], wordItem "salt_length" ["32"],
      textItem "hash_function" "sha256".toList]
  | .awsKms keyId region =>
    [textItem "kms_key_id" keyId, textItem "region" region, textItem "key_spec" "AES_256".toList]
  | .gcpKms keyId => [textItem "kms_encryption_key" keyId, wordItem "key_length" ["32"]]
  | .azureKeyVault url keyName =>
    [textItem "vault_url" url, textItem "key_name" keyName, textItem "key_type" "RSA-HSM".toList]
  | .openbao address token key =>
    [textItem "address" address, textItem "token" (printed token), textItem "key" key]

/-- State and plans are encrypted, and unencrypted ones can be read. -/
def encryptedTarget (type : String) : Item :=
  block type [] [wordItem "method" ["method", "aes_gcm", "main"],
    block "fallback" [] [wordItem "method" ["method", "unencrypted", "migrate"]]]

/-- The body of `encryption.tf`. -/
def encryptionBody (provider : KeyProvider) : Body :=
  [block "terraform" [] [block "encryption" []
    [block "key_provider" [provider.name, "main"] provider.items,
      block "method" ["unencrypted", "migrate"] [],
      block "method" ["aes_gcm", "main"] [wordItem "keys" ["key_provider", provider.name, "main"]],
      encryptedTarget "state", encryptedTarget "plan"]]]

/-- The file of a backend says what is configured, whatever expressions evaluate to. -/
def BackendCarries (b : Backend) : Prop := ∀ eval, read eval (backendContent b) = some (backendBody b)

/-- The file of a key provider says what is configured, whatever expressions evaluate to. -/
def KeyProviderCarries (provider : KeyProvider) : Prop :=
  ∀ eval, read eval (encryptionContent provider) = some (encryptionBody provider)

/-! ### The tokens of the layouts -/

def word (text : String) : Token Text := .word text.toList

/-- A constant template. -/
def quoted (text : String) : Token Text := .str text.toList

/-- The beginning of an attribute. -/
def assigns (name : String) : List (Token Text) := [word name, .symbol '=']

def assignsWord (name value : String) : List (Token Text) := assigns name ++ [word value, .newline]

def reference : List String → List (Token Text)
  | [] => []
  | [w] => [word w]
  | w :: ws => word w :: .symbol '.' :: reference ws

/-- The beginning of a block. -/
def opens (type : String) (labels : List String) : List (Token Text) :=
  word type :: labels.map quoted ++ [.symbol '\x7b', .newline]

/-- The end of blocks. -/
def closes (n : Nat) : List (Token Text) := (List.replicate n [.symbol '\x7d', .newline]).flatten

def backendHead (type name : String) : List (Token Text) :=
  .newline :: opens "terraform" [] ++ opens "backend" [type] ++ assigns name

def ibmTokens : LayoutTokens where
  head := backendHead "s3" "bucket"
  gaps :=
    [.newline :: assigns "key", .newline :: assigns "region",
      .newline :: assignsWord "encrypt" "true" ++ assignsWord "use_lockfile" "true" ++
        assigns "endpoints" ++ .symbol '\x7b' :: assigns "s3",
      .symbol '\x7d' :: .newline :: assignsWord "skip_region_validation" "true" ++
        assignsWord "skip_credentials_validation" "true" ++ assignsWord "skip_requesting_account_id" "true"]
  tail := closes 2

def nativeTokens : LayoutTokens where
  head := backendHead "s3" "bucket"
  gaps :=
    [.newline :: assigns "key", .newline :: assigns "region",
      .newline :: assignsWord "encrypt" "true" ++ assignsWord "use_lockfile" "true"]
  tail := closes 2

def dynamodbTokens : LayoutTokens where
  head := backendHead "s3" "bucket"
  gaps :=
    [.newline :: assigns "key", .newline :: assigns "region",
      .newline :: assignsWord "encrypt" "true" ++ assigns "dynamodb_table", [.newline]]
  tail := closes 2

def localTokens : LayoutTokens where
  head := backendHead "local" "path"
  gaps := [[.newline]]
  tail := closes 2

def targetTokens (type : String) : List (Token Text) :=
  .newline :: opens type [] ++ assigns "method" ++ reference ["method", "aes_gcm", "main"] ++
    .newline :: opens "fallback" [] ++ assigns "method" ++ reference ["method", "unencrypted", "migrate"] ++
    .newline :: closes 2

def tokensBefore : List (Token Text) :=
  .newline :: opens "method" ["unencrypted", "migrate"] ++ closes 1 ++
    .newline :: opens "method" ["aes_gcm", "main"] ++ assigns "keys" ++ [word "key_provider", .symbol '.']

def tailTokens (provider : String) : List (Token Text) :=
  tokensBefore ++ ([word provider, .symbol '.'] ++ ((word "main" :: .newline :: closes 1) ++
    (targetTokens "state" ++ (targetTokens "plan" ++ closes 2))))

def providerHead (provider name : String) : List (Token Text) :=
  .newline :: opens "terraform" [] ++ opens "encryption" [] ++ opens "key_provider" [provider, "main"] ++
    assigns name

def pbkdf2Tokens : LayoutTokens where
  head := providerHead "pbkdf2" "passphrase"
  gaps :=
    [.newline :: assignsWord "key_length" "32" ++ assignsWord "iterations" "200000" ++
      assignsWord "salt_length" "32" ++ assigns "hash_function" ++ [quoted "sha256", .newline] ++ closes 1]
  tail := tailTokens "pbkdf2"

def awsKmsTokens : LayoutTokens where
  head := providerHead "aws_kms" "kms_key_id"
  gaps :=
    [.newline :: assigns "region",
      .newline :: assigns "key_spec" ++ [quoted "AES_256", .newline] ++ closes 1]
  tail := tailTokens "aws_kms"

def gcpKmsTokens : LayoutTokens where
  head := providerHead "gcp_kms" "kms_encryption_key"
  gaps := [.newline :: assignsWord "key_length" "32" ++ closes 1]
  tail := tailTokens "gcp_kms"

def azureKeyVaultTokens : LayoutTokens where
  head := providerHead "azure_key_vault" "vault_url"
  gaps :=
    [.newline :: assigns "key_name",
      .newline :: assigns "key_type" ++ [quoted "RSA-HSM", .newline] ++ closes 1]
  tail := tailTokens "azure_key_vault"

def openbaoTokens : LayoutTokens where
  head := providerHead "openbao" "address"
  gaps := [.newline :: assigns "token", .newline :: assigns "key", .newline :: closes 1]
  tail := tailTokens "openbao"

/-! ### Plain settings -/

section Layouts

set_option maxRecDepth 2048

theorem backendLayouts_scan :
    ibmLayout.Scans ibmTokens ∧
      nativeLayout.Scans nativeTokens ∧
      dynamodbLayout.Scans dynamodbTokens ∧
      localLayout.Scans localTokens := by
  refine ⟨?_, ?_, ?_, ?_⟩
  · refine ⟨scans_ofList (by decide +kernel), ?_, scans_ofList (by decide +kernel)⟩
    exact .cons (gap_ofList (by decide +kernel) (by decide)) <|
      .cons (gap_ofList (by decide +kernel) (by decide)) <|
      .cons (gap_ofList (by decide +kernel) (by decide)) <|
      .cons (gap_ofList (by decide +kernel) (by decide)) <|
      .nil
  · refine ⟨scans_ofList (by decide +kernel), ?_, scans_ofList (by decide +kernel)⟩
    exact .cons (gap_ofList (by decide +kernel) (by decide)) <|
      .cons (gap_ofList (by decide +kernel) (by decide)) <|
      .cons (gap_ofList (by decide +kernel) (by decide)) <|
      .nil
  · refine ⟨scans_ofList (by decide +kernel), ?_, scans_ofList (by decide +kernel)⟩
    exact .cons (gap_ofList (by decide +kernel) (by decide)) <|
      .cons (gap_ofList (by decide +kernel) (by decide)) <|
      .cons (gap_ofList (by decide +kernel) (by decide)) <|
      .cons (gap_ofList (by decide +kernel) (by decide)) <|
      .nil
  · refine ⟨scans_ofList (by decide +kernel), ?_, scans_ofList (by decide +kernel)⟩
    exact .cons (gap_ofList (by decide +kernel) (by decide)) <|
      .nil

theorem scans_encryptionTail {name : Text}
    (h : Scans (name ++ ['.']) [word (String.ofList name), .symbol '.']) :
    Scans (encryptionTail (String.ofList name)).toList (tailTokens (String.ofList name)) := by
  have hdot : ".".toList = ['.'] := rfl
  have hbefore : Scans methodsBefore.toList tokensBefore := scans_ofList (by decide +kernel)
  have hafter : Scans methodsAfter.toList (word "main" :: .newline :: closes 1) :=
    scans_ofList (by decide +kernel)
  have hstate : Scans stateBlock.toList (targetTokens "state") := scans_ofList (by decide +kernel)
  have hplan : Scans planBlock.toList (targetTokens "plan") := scans_ofList (by decide +kernel)
  have hend : Scans "  \x7d\n\x7d\n".toList (closes 2) := scans_ofList (by decide +kernel)
  simp only [encryptionTail, String.toList_append, String.toList_ofList, hdot]
  rw [← append_assoc name]
  exact hbefore.append (h.append (hafter.append (hstate.append (hplan.append hend))))

theorem encryptionLayouts_scan :
    pbkdf2Layout.Scans pbkdf2Tokens ∧
      awsKmsLayout.Scans awsKmsTokens ∧
      gcpKmsLayout.Scans gcpKmsTokens ∧
      azureKeyVaultLayout.Scans azureKeyVaultTokens ∧
      openbaoLayout.Scans openbaoTokens := by
  refine ⟨?_, ?_, ?_, ?_, ?_⟩
  · refine ⟨scans_ofList (by decide +kernel), ?_, scans_encryptionTail (by decide +kernel)⟩
    exact .cons (gap_ofList (by decide +kernel) (by decide)) <|
      .nil
  · refine ⟨scans_ofList (by decide +kernel), ?_, scans_encryptionTail (by decide +kernel)⟩
    exact .cons (gap_ofList (by decide +kernel) (by decide)) <|
      .cons (gap_ofList (by decide +kernel) (by decide)) <|
      .nil
  · refine ⟨scans_ofList (by decide +kernel), ?_, scans_encryptionTail (by decide +kernel)⟩
    exact .cons (gap_ofList (by decide +kernel) (by decide)) <|
      .nil
  · refine ⟨scans_ofList (by decide +kernel), ?_, scans_encryptionTail (by decide +kernel)⟩
    exact .cons (gap_ofList (by decide +kernel) (by decide)) <|
      .cons (gap_ofList (by decide +kernel) (by decide)) <|
      .nil
  · refine ⟨scans_ofList (by decide +kernel), ?_, scans_encryptionTail (by decide +kernel)⟩
    exact .cons (gap_ofList (by decide +kernel) (by decide)) <|
      .cons (gap_ofList (by decide +kernel) (by decide)) <|
      .cons (gap_ofList (by decide +kernel) (by decide)) <|
      .nil

end Layouts

theorem backendCarries_iff (b : Backend) : BackendCarries b ↔ ∀ v ∈ b.values, Plain v := by
  cases b with
  | s3 bucket key region locking =>
    cases locking with
    | ibm endpoint => exact forall_read_eq_iff backendLayouts_scan.1 rfl rfl
    | native => exact forall_read_eq_iff backendLayouts_scan.2.1 rfl rfl
    | dynamodb table => exact forall_read_eq_iff backendLayouts_scan.2.2.1 rfl rfl
  | «local» path => exact forall_read_eq_iff backendLayouts_scan.2.2.2 rfl rfl

theorem keyProviderCarries_iff (provider : KeyProvider) :
    KeyProviderCarries provider ↔ ∀ v ∈ provider.values, Plain v := by
  cases provider with
  | pbkdf2 passphrase => exact forall_read_eq_iff encryptionLayouts_scan.1 rfl rfl
  | awsKms keyId region => exact forall_read_eq_iff encryptionLayouts_scan.2.1 rfl rfl
  | gcpKms keyId => exact forall_read_eq_iff encryptionLayouts_scan.2.2.1 rfl rfl
  | azureKeyVault url keyName => exact forall_read_eq_iff encryptionLayouts_scan.2.2.2.1 rfl rfl
  | openbao address token key => exact forall_read_eq_iff encryptionLayouts_scan.2.2.2.2 rfl rfl

/-! ### Plain columns -/

variable {cipher : Cipher} {nonce : Nat} {persists : Bool} {p p' : Project} {m : ProjectModule}
  {defaultRegion column : Option Text} {provider : KeyProvider} {a b v w : Text}

abbrev Project.storesOnIbm (p : Project) : Prop :=
  textOr p.backend.stateStorageProvider
    (if p.cloudProvider = some "ibm".toList then "ibm".toList else "aws".toList) = "ibm".toList

/-- The columns that an S3 backend is written from are plain. -/
structure PlainBackend (p : Project) (m : ProjectModule) (defaultRegion : Option Text) : Prop where
  bucket : Plain (textOr p.backend.s3StateBucket p.name)
  prefixedName : Plain (prefixedName p)
  path : Plain m.pathInProject
  region : Plain (textOr p.backend.s3StateRegion (textOr p.region (textOr defaultRegion "us-east-1".toList)))
  endpoint : p.storesOnIbm → Plain (textOr p.backend.s3Endpoint [])
  table : ¬ p.storesOnIbm → ¬ p.backend.s3UseNativeLocking → Plain (textOr p.backend.s3DynamodbTable [])

def Holds (column : Option Text) (v : Text) : Prop := column.filter (· ≠ []) = some v

def HoldsEncrypted (cipher : Cipher) (column : Option Text) (v : Text) : Prop :=
  if isSet column then column.bind cipher.decrypt = some v else v = []

/-- The columns that a provider which is not `pbkdf2` is written from are plain, if there are all that
it needs. -/
def PlainCloudColumns (cipher : Cipher) (p : Project) (defaultRegion : Option Text) (provider : Text) : Prop :=
  let enc := p.encryption
  if provider = "aws_kms".toList then
    ∀ keyId, Holds enc.encryptionKmsKeyId keyId → Plain keyId ∧
      Plain (textOr enc.encryptionKmsRegion (textOr p.region (textOr defaultRegion "us-east-1".toList)))
  else if provider = "gcp_kms".toList then
    ∀ keyId, Holds enc.encryptionKmsKeyId keyId → Plain keyId
  else if provider = "azure_key_vault".toList then
    ∀ url, Holds enc.encryptionVaultUrl url → ∀ keyName, Holds enc.encryptionVaultKeyName keyName →
      Plain url ∧ Plain keyName
  else if provider = "openbao".toList then
    ∀ address, Holds enc.encryptionOpenbaoAddress address →
      ∀ token, HoldsEncrypted cipher enc.encryptionOpenbaoTokenEncrypted token →
      Plain address ∧ Plain token ∧ Plain (textOr enc.encryptionOpenbaoTransitKey [])
  else True

def PlainEncryption (cipher : Cipher) (p : Project) (defaultRegion : Option Text) : Prop :=
  let enc := p.encryption
  let provider := textOr enc.encryptionProvider "pbkdf2".toList
  if provider = "pbkdf2".toList then
    ∀ passphrase, HoldsEncrypted cipher enc.encryptionPassphraseEncrypted passphrase → Plain passphrase
  else PlainCloudColumns cipher p defaultRegion provider

theorem plain_textOr_congr (h : Plain a ↔ Plain b) : Plain (textOr column a) ↔ Plain (textOr column b) := by
  unfold textOr
  cases column.filter (· ≠ []) with
  | none => exact h
  | some v => rfl

theorem plain_stateBucket : Plain (stateBucket p) ↔ Plain (textOr p.backend.s3StateBucket p.name) :=
  plain_textOr_congr (plain_append_ordinary_iff (ordinary_ofList (by decide)) (by simp))

theorem plain_stateKey : Plain (stateKey p m) ↔ Plain (prefixedName p) ∧ Plain m.pathInProject := by
  have hslash : ∀ t : Text, Plain ('/' :: t) ↔ Plain t := fun t ↦
    (plain_cons_iff (by decide)).trans (and_iff_right (by decide))
  rw [stateKey, plain_append_iff (by simp), hslash,
    plain_append_ordinary_iff (ordinary_ofList (by decide)) (by simp)]

theorem isOrdinary_of_mem_decimal {n : Nat} {c : Char} (h : c ∈ decimal n) : IsOrdinary c := by
  rw [decimal, Nat.toString_eq_repr, Nat.repr, String.toList_ofList] at h
  exact isOrdinary_of_isDigit (Python.isDigit_of_mem_toDigits h)

theorem plain_localPath (p : Project) (m : ProjectModule) :
    Plain ("/app/state/".toList ++ decimal p.id ++ '/' :: decimal m.id ++ "/terraform.tfstate".toList) := by
  have hbefore : ∀ c ∈ "/app/state/".toList, IsOrdinary c := ordinary_ofList (by decide)
  have hbehind : ∀ c ∈ "/terraform.tfstate".toList, IsOrdinary c := ordinary_ofList (by decide)
  refine plain_of_forall fun c hc ↦ ?_
  simp only [mem_append, mem_cons] at hc
  rcases hc with ((hc | hc) | rfl | hc) | hc
  · exact hbefore c hc
  · exact isOrdinary_of_mem_decimal hc
  · decide
  · exact isOrdinary_of_mem_decimal hc
  · exact hbehind c hc

theorem plain_derivedPassphrase (p : Project) : Plain (derivedPassphrase p) := by
  have hdigits : ∀ n < 16, IsOrdinary (Nat.digitChar n) := by decide
  refine plain_of_forall fun c hc ↦ ?_
  obtain ⟨n, hn, rfl⟩ := Python.Sha256.exists_of_mem_hexdigest (mem_of_mem_take hc)
  exact hdigits n hn

theorem plain_endpoint {region : Text} (h : Plain region) :
    Plain (textOr column ("https://s3.".toList ++ region ++ ".cloud-object-storage.appdomain.cloud".toList)) ↔
      Plain (textOr column []) := by
  refine plain_textOr_congr (iff_of_true ?_ plain_nil)
  rw [plain_append_ordinary_iff (ordinary_ofList (by decide)) (by simp),
    plain_ordinary_append_iff (ordinary_ofList (by decide))]
  exact h

theorem forall_plain_writeBackendConfig (p : Project) (m : ProjectModule) (defaultRegion : Option Text) :
    (∀ v ∈ (writeBackendConfig p m defaultRegion).values, Plain v) ↔
      (p.usesS3 → PlainBackend p m defaultRegion) := by
  by_cases hs3 : p.usesS3 = true
  · rw [writeBackendConfig, if_pos hs3, forall_prop_of_true hs3]
    dsimp only
    by_cases hibm : p.storesOnIbm
    · rw [if_pos hibm]
      simp only [Backend.values, forall_mem_cons, plain_stateBucket, plain_stateKey]
      constructor
      · rintro ⟨hbucket, ⟨hname, hpath⟩, hregion, hendpoint, -⟩
        exact ⟨hbucket, hname, hpath, hregion, fun _ ↦ (plain_endpoint hregion).mp hendpoint,
          fun h ↦ absurd hibm h⟩
      · intro h
        exact ⟨h.bucket, ⟨h.prefixedName, h.path⟩, h.region,
          (plain_endpoint h.region).mpr (h.endpoint hibm), by simp⟩
    rw [if_neg hibm]
    by_cases hnative : p.backend.s3UseNativeLocking = true
    · rw [if_pos hnative]
      simp only [Backend.values, forall_mem_cons, plain_stateBucket, plain_stateKey]
      constructor
      · rintro ⟨hbucket, ⟨hname, hpath⟩, hregion, -⟩
        exact ⟨hbucket, hname, hpath, hregion, fun h ↦ absurd h hibm, fun _ h ↦ absurd hnative h⟩
      · intro h
        exact ⟨h.bucket, ⟨h.prefixedName, h.path⟩, h.region, by simp⟩
    · have htable : Plain (textOr p.backend.s3DynamodbTable "terraform-locks".toList) ↔
          Plain (textOr p.backend.s3DynamodbTable []) :=
        plain_textOr_congr (iff_of_true (plain_of_forall (ordinary_ofList (by decide))) plain_nil)
      rw [if_neg hnative]
      simp only [Backend.values, forall_mem_cons, plain_stateBucket, plain_stateKey, htable]
      constructor
      · rintro ⟨hbucket, ⟨hname, hpath⟩, hregion, hplain, -⟩
        exact ⟨hbucket, hname, hpath, hregion, fun h ↦ absurd h hibm, fun _ _ ↦ hplain⟩
      · intro h
        exact ⟨h.bucket, ⟨h.prefixedName, h.path⟩, h.region, h.table hibm hnative, by simp⟩
  · rw [writeBackendConfig, if_neg hs3, forall_prop_of_false hs3, iff_true]
    exact forall_mem_singleton.mpr (plain_localPath p m)

theorem required_eq_ok_iff {message : String} : required column message = .ok v ↔ Holds column v := by
  unfold required Holds
  cases column.filter (· ≠ []) <;> simp

theorem forall_decrypted_iff {β : Type} {f : Option Text → Except ConfigError β} {x : Except ConfigError β}
    {P : β → Prop} {Q : Text → Prop} (hset : ∀ v, (∀ b, f (some v) = .ok b → P b) ↔ Q v)
    (hempty : (∀ b, x = .ok b → P b) ↔ Q []) :
    (∀ b, (if isSet column then decrypted cipher column >>= f else x) = .ok b → P b) ↔
      ∀ v, HoldsEncrypted cipher column v → Q v := by
  unfold HoldsEncrypted
  cases column with
  | none => simpa [isSet] using hempty
  | some encrypted =>
    by_cases hne : encrypted = []
    · simpa [isSet, hne] using hempty
    · have hisSet : isSet (some encrypted) = true := by simp [isSet, hne]
      simp only [if_pos hisSet, forall_bind_ok_iff, decrypted, decryptValue, if_neg hne, Option.bind_some]
      cases cipher.decrypt encrypted with
      | none => simp
      | some v => simp [hset]

theorem forall_plain_cloudKeyProvider (name : Text) :
    (∀ provider, cloudKeyProvider cipher p defaultRegion name = .ok provider →
      ∀ v ∈ provider.values, Plain v) ↔ PlainCloudColumns cipher p defaultRegion name := by
  unfold cloudKeyProvider PlainCloudColumns
  dsimp only
  by_cases haws : name = "aws_kms".toList
  · rw [if_pos haws, if_pos haws]
    simp only [forall_bind_ok_iff, forall_pure_ok_iff, required_eq_ok_iff]
    exact forall₂_congr fun keyId _ ↦ by simp [KeyProvider.values]
  rw [if_neg haws, if_neg haws]
  by_cases hgcp : name = "gcp_kms".toList
  · rw [if_pos hgcp, if_pos hgcp]
    simp only [forall_bind_ok_iff, forall_pure_ok_iff, required_eq_ok_iff]
    exact forall₂_congr fun keyId _ ↦ by simp [KeyProvider.values]
  rw [if_neg hgcp, if_neg hgcp]
  by_cases hazure : name = "azure_key_vault".toList
  · rw [if_pos hazure, if_pos hazure]
    simp only [forall_bind_ok_iff, forall_pure_ok_iff, required_eq_ok_iff]
    exact forall₄_congr fun url _ keyName _ ↦ by simp [KeyProvider.values]
  rw [if_neg hazure, if_neg hazure]
  by_cases hbao : name = "openbao".toList
  · rw [if_pos hbao, if_pos hbao]
    have hkey : Plain (textOr p.encryption.encryptionOpenbaoTransitKey "tofu-state".toList) ↔
        Plain (textOr p.encryption.encryptionOpenbaoTransitKey []) :=
      plain_textOr_congr (iff_of_true (plain_of_forall (ordinary_ofList (by decide))) plain_nil)
    simp only [forall_bind_ok_iff, required_eq_ok_iff]
    refine forall₂_congr fun address _ ↦ forall_decrypted_iff (fun token ↦ ?_) ?_
    · simp only [forall_pure_ok_iff, KeyProvider.values, printed, Option.getD_some, forall_mem_cons, hkey]
      simp
    · simp only [pure_bind, forall_pure_ok_iff, KeyProvider.values, printed, Option.getD_some,
        forall_mem_cons, hkey]
      simp
  · rw [if_neg hbao, if_neg hbao, iff_true]
    intro provider h
    cases h

variable (cipher nonce persists p defaultRegion) in
theorem forall_plain_writeEncryptionConfig :
    (∀ provider p', writeEncryptionConfig cipher nonce persists p defaultRegion = .ok (some provider, p') →
      ∀ v ∈ provider.values, Plain v) ↔
      (p.encryption.stateEncryptionEnabled → PlainEncryption cipher p defaultRegion) := by
  have hpair : (∀ provider p',
      writeEncryptionConfig cipher nonce persists p defaultRegion = .ok (some provider, p') →
        ∀ v ∈ provider.values, Plain v) ↔
      ∀ r, writeEncryptionConfig cipher nonce persists p defaultRegion = .ok r →
        ∀ provider ∈ r.1, ∀ v ∈ provider.values, Plain v :=
    ⟨fun h r hr provider hprovider ↦ h provider r.2 (by rw [hr, ← Option.mem_def.mp hprovider]),
      fun h provider p' hp ↦ h _ hp provider rfl⟩
  rw [hpair]
  unfold writeEncryptionConfig PlainEncryption
  dsimp only
  by_cases henabled : p.encryption.stateEncryptionEnabled = true
  · rw [if_pos henabled, forall_prop_of_true henabled]
    by_cases hpbkdf2 : textOr p.encryption.encryptionProvider "pbkdf2".toList = "pbkdf2".toList
    · rw [if_pos hpbkdf2, if_pos hpbkdf2]
      refine forall_decrypted_iff (fun passphrase ↦ ?_) ?_
      · rw [forall_pure_ok_iff]
        simp [KeyProvider.values, printed]
      · rw [forall_pure_ok_iff]
        simp [KeyProvider.values, printed, plain_derivedPassphrase, plain_nil]
    · rw [if_neg hpbkdf2, if_neg hpbkdf2, ← forall_plain_cloudKeyProvider, forall_bind_ok_iff]
      exact forall₂_congr fun provider _ ↦ by rw [forall_pure_ok_iff]; simp
  · rw [if_neg henabled, forall_prop_of_false henabled, iff_true, forall_pure_ok_iff]
    simp

/-! ### The files of a module -/

/-- The files of a module say what is configured. -/
structure FilesCarry (cipher : Cipher) (nonce : Nat) (persists : Bool) (p : Project) (m : ProjectModule)
    (defaultRegion : Option Text) : Prop where
  backend : BackendCarries (writeBackendConfig p m defaultRegion)
  keyProvider : ∀ provider p',
    writeEncryptionConfig cipher nonce persists p defaultRegion = .ok (some provider, p') →
      KeyProviderCarries provider

/-- The files of a module say what is configured just if the columns they are written from are plain. -/
theorem filesCarry_iff (cipher : Cipher) (nonce : Nat) (persists : Bool) (p : Project) (m : ProjectModule)
    (defaultRegion : Option Text) : FilesCarry cipher nonce persists p m defaultRegion ↔
      (p.usesS3 → PlainBackend p m defaultRegion) ∧
      (p.encryption.stateEncryptionEnabled → PlainEncryption cipher p defaultRegion) := by
  rw [← forall_plain_writeBackendConfig, ← backendCarries_iff,
    ← forall_plain_writeEncryptionConfig cipher nonce persists p defaultRegion]
  simp only [← keyProviderCarries_iff]
  exact ⟨fun h ↦ ⟨h.backend, h.keyProvider⟩, fun h ↦ ⟨h.1, h.2⟩⟩

def quotedPassphrase : Project where
  id := 1
  name := "edge".toList
  encryptionColumns := { encryptionPassphraseEncrypted := some "gmarch \"hare\" tea party".toList }

theorem quotedPassphrase_not_filesCarry :
    ¬ FilesCarry markingCipher 0 true quotedPassphrase ⟨1, 1, "vpc".toList⟩ none := by
  intro h
  have hcarries : KeyProviderCarries (.pbkdf2 (some "march \"hare\" tea party".toList)) :=
    h.keyProvider _ quotedPassphrase rfl
  have hplain := (keyProviderCarries_iff _).mp hcarries _ List.mem_cons_self
  exact hplain.notSpecial '"' (by decide +kernel) (.inl rfl)

end BnkForge.Config
