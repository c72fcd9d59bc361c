import BnkForge.Lib.ExceptResult
import BnkForge.Lib.PythonYaml

/-!
# Normalizing a kubeconfig

`normalize_kubeconfig` (`backend/services/kubeconfig_normalizer.py:56–208`). A kubeconfig is loaded, its
clusters and users are stripped of file paths that have an inline form beside them, and it is dumped
again. What `yaml.safe_load` and `yaml.dump` do is a parameter.
-/

namespace BnkForge.Kubeconfig

open Python

/-- `SUPPORTED_EXEC_COMMANDS`. -/
def supportedExecCommands : List String :=
  ["aws", "aws-iam-authenticator", "gke-gcloud-auth-plugin", "kubelogin"]

/-- `NormalizationSource`. -/
inductive NormalizationSource
  | manualUpload
  | sshDiscovery
  | cloudApiGenerated
  | moduleOutput
  | internalReread
  deriving DecidableEq, Repr

/-- `KubeconfigUnportableError`, with what it hands to `AppError`. -/
structure KubeconfigUnportableError where
  code : String
  message : String
  statusCode : Nat
  field : String
  userMessage : String
  deriving DecidableEq, Repr

/-- `KubeconfigUnportableError(field, user_message)`. -/
def kubeconfigUnportableError (field userMessage : String) : KubeconfigUnportableError where
  code := "KUBECONFIG_UNPORTABLE"
  message := "Kubeconfig is not portable: " ++ field
  statusCode := 422
  field := field
  userMessage := userMessage

/-- What `yaml.safe_load` raises. -/
inductive LoadError
  | yamlError (text : String)
  | other
  deriving DecidableEq, Repr

inductive NormalizeError
  | unportable (e : KubeconfigUnportableError)
  | raised (e : Raised)
  | load
  deriving DecidableEq, Repr

/-- `_REREAD_RE_UPLOAD`. -/
def rereadReUpload : String :=
  "This kubeconfig was stored before Forge enforced portability. " ++
  "Please re-upload a flattened kubeconfig (run `kubectl config view " ++
  "--flatten --minify --raw` or `oc config view --flatten --minify --raw` " ++
  "on the source machine)."

/-- `_path_user_message`. -/
def pathUserMessage (path : String) (source : NormalizationSource) : String :=
  if source = .internalReread then rereadReUpload
  else
    "Kubeconfig references a file path Forge cannot read (`" ++ path ++ "`). " ++
    "On the machine that has access to this file, run " ++
    "`kubectl config view --flatten --minify --raw` (or " ++
    "`oc config view --flatten --minify --raw`) and upload the output. " ++
    "If Forge can reach the cluster via SSH, configure SSH auto-discovery " ++
    "and Forge will flatten the kubeconfig remotely."

/-- `_exec_user_message`. -/
def execUserMessage (command : String) (source : NormalizationSource) : String :=
  let supported := ", ".intercalate (supportedExecCommands.mergeSort (· ≤ ·))
  if source = .internalReread then
    "This kubeconfig was stored with an unsupported exec plugin " ++
    "(`" ++ command ++ "`). Supported commands: " ++ supported ++ ". " ++
    "Please re-upload a kubeconfig that uses a bearer token or " ++
    "client certificate, or one of the supported exec plugins."
  else
    "Kubeconfig contains an `exec:` plugin (`" ++ command ++ "`) Forge does not " ++
    "support. Supported commands: " ++ supported ++ ". " ++
    "To deploy with this cluster, replace the exec auth with a bearer " ++
    "`token` or a `*-data`-inlined client cert/key, then re-upload."

/-- A credential: the key of its inline form and the key of its path form. -/
structure Credential where
  data : String
  path : String
  deriving DecidableEq, Repr

def certificateAuthority : Credential := ⟨"certificate-authority-data", "certificate-authority"⟩

def userCredentials : List Credential :=
  [⟨"client-certificate-data", "client-certificate"⟩, ⟨"client-key-data", "client-key"⟩,
    ⟨"token", "tokenFile"⟩]

section

variable (repr : Yaml → String) (source : NormalizationSource)

def inlineCredential (credential : Credential) (item : Yaml.Items) : Except NormalizeError Yaml.Items :=
  if (Yaml.get item credential.data).truthy then .ok (Yaml.pop item credential.path)
  else if (Yaml.get item credential.path).truthy then
    .error (.unportable (kubeconfigUnportableError credential.path
      (pathUserMessage ((Yaml.get item credential.path).toText repr) source)))
  else .ok item

def execCommand (exec : Yaml.Items) : Yaml := (exec.lookup (.str "command")).getD (.scalar (.str ""))

/-- `command in SUPPORTED_EXEC_COMMANDS`, for a command that has a hash. -/
def isSupported : Yaml → Bool
  | .scalar (.str command) => supportedExecCommands.contains command
  | _ => false

def checkExec (user : Yaml.Items) : Except NormalizeError Yaml.Items :=
  match (Yaml.get user "exec").dict? with
  | none => .ok user
  | some exec =>
    if !(execCommand exec).hashable then .error (.raised .typeError)
    else if isSupported (execCommand exec) then .ok user
    else .error (.unportable (kubeconfigUnportableError "exec.command"
      (execUserMessage ((execCommand exec).toText repr) source)))

/-- The body of the loop of `_normalize_clusters`. -/
def normalizeCluster (cluster : Yaml.Items) : Except NormalizeError Yaml.Items :=
  inlineCredential repr source certificateAuthority cluster

/-- The body of the loop of `_normalize_users`. -/
def normalizeUser (user : Yaml.Items) : Except NormalizeError Yaml.Items := do
  let user ← userCredentials.foldlM (fun user credential ↦ inlineCredential repr source credential user) user
  checkExec repr source user

end

section

variable (f : Yaml.Items → Except NormalizeError Yaml.Items)

/-- `(entry or {}).get(key)` and the body of the loop, if it is a dict. -/
def normalizeEntry (itemKey : String) (entry : Yaml) : Except NormalizeError Yaml :=
  match entry with
  | .dict items =>
    match (Yaml.get items itemKey).dict? with
    | none => .ok entry
    | some item => (f item).map fun item ↦ .dict (Yaml.adjust itemKey (fun _ ↦ .dict item) items)
  | entry => if entry.truthy then .error (.raised .attributeError) else .ok entry

/-- The entries after a loop that changes them in place: only a list or a tuple holds mappings. -/
def putBack (entries : List Yaml) : Yaml → Yaml
  | .list _ => .list entries
  | .tuple _ => .tuple entries
  | v => v

theorem adjust_putBack {listKey : String} {doc : Yaml.Items} {entries : List Yaml} {g : Yaml → Yaml}
    (h : (Yaml.get doc listKey).iterate = .ok entries) :
    Yaml.adjust listKey (putBack (entries.map g)) doc = Yaml.adjust listKey (Yaml.onElements g) doc := by
  refine Yaml.adjust_congr ?_
  cases hget : Yaml.get doc listKey with
  | list items | tuple items =>
    rw [hget] at h
    cases h
    rfl
  | _ => rfl

/-- A loop over `kubeconfig.get(key) or []`. -/
def normalizeSection (listKey itemKey : String) (doc : Yaml.Items) : Except NormalizeError Yaml.Items :=
  if (Yaml.get doc listKey).truthy then
    match (Yaml.get doc listKey).iterate with
    | .error e => .error (.raised e)
    | .ok entries =>
      (entries.mapM (normalizeEntry f itemKey)).map fun entries ↦
        Yaml.adjust listKey (putBack entries) doc
  else .ok doc

end

section

variable (load : String → Except LoadError Yaml) (dump : Yaml → String) (repr : Yaml → String)
  (source : NormalizationSource)

/-- `_normalize_clusters` and `_normalize_users`. -/
def normalizeDocument (doc : Yaml.Items) : Except NormalizeError Yaml.Items := do
  let doc ← normalizeSection (normalizeCluster repr source) "clusters" "cluster" doc
  normalizeSection (normalizeUser repr source) "users" "user" doc

/-- `normalize_kubeconfig`. -/
def normalizeKubeconfig (yamlText : String) : Except NormalizeError String :=
  match load yamlText with
  | .error (.yamlError exc) => .error (.unportable (kubeconfigUnportableError "kubeconfig"
      ("Kubeconfig is not valid YAML: " ++ exc)))
  | .error .other => .error .load
  | .ok (.dict kubeconfig) => (normalizeDocument repr source kubeconfig).map fun doc ↦ dump (.dict doc)
  | .ok _ => .error (.unportable (kubeconfigUnportableError "kubeconfig"
      "Kubeconfig must be a YAML mapping, got a non-dict value."))

end

end BnkForge.Kubeconfig
