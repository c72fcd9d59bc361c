import BnkForge.Lib.Assoc
import BnkForge.Lib.PythonValue
import BnkForge.Lib.Sha256
import Mathlib.Data.List.Nodup

/-!
# The registry of operators

The tables `operator_registration_tokens` and `connected_operators` and the functions of
`backend/services/operator_registry.py:89–242` on them. A function sees the rows of its session and
leaves them changed; what is committed is up to its caller.
-/

namespace BnkForge.Operators

open Python List

/-! ### The tables -/

/-- `OperatorStatus`. -/
inductive OperatorStatus
  | registered
  | connected
  | disconnected
  | error
  deriving DecidableEq, Repr

/-- The items of a JSON object. -/
abbrev Labels := List (String × Value)

/-- A row of `operator_registration_tokens`. -/
structure RegistrationToken where
  id : Nat
  name : String := ""
  tokenHash : List Char
  maxUses : Option Nat := none
  useCount : Nat := 0
  expiresAt : Option ℚ := none
  labels : Labels := []
  isActive : Bool := true
  lastUsedAt : Option ℚ := none

/-- A row of `connected_operators`. -/
structure ConnectedOperator where
  operatorId : String
  registrationTokenId : Option Nat
  clusterName : String
  connectivityMode : String := "direct_ws"
  labels : Labels := []
  isConnected : Bool := false
  lastHeartbeatAt : Option ℚ := none
  lastConnectedAt : Option ℚ := none
  lastDisconnectedAt : Option ℚ := none
  disconnectReason : Option String := none
  operatorVersion : Option String := none
  kubernetesVersion : Value := .none
  nodeCount : Value := .none
  nodesReady : Value := .none
  lastHealthReport : Value := .none
  lastHealthAt : Option ℚ := none
  commandsExecuted : Int := 0
  uptimeSeconds : Int := 0
  status : OperatorStatus := .registered

structure Registry where
  tokens : List RegistrationToken
  operators : List ConnectedOperator
  ids : (tokens.map RegistrationToken.id).Nodup
  hashes : (tokens.map RegistrationToken.tokenHash).Nodup

/-! ### Tokens -/

/-- `_hash_token`. -/
def hashToken (token : String) : List Char := Sha256.hexdigest (encode token.toList)

def RegistrationToken.isExpired (now : ℚ) (token : RegistrationToken) : Bool :=
  token.expiresAt.any fun expires ↦ expires < now

def RegistrationToken.isExhausted (token : RegistrationToken) : Bool :=
  token.maxUses.any fun uses ↦ uses ≤ token.useCount

/-- `validate_registration_token`. -/
def validateRegistrationToken (db : Registry) (plaintext : String) (now : ℚ) :
    Option RegistrationToken :=
  (db.tokens.find? fun token ↦ token.tokenHash == hashToken plaintext && token.isActive).bind
    fun token ↦ if token.isExpired now || token.isExhausted then none else some token

def Registry.updateToken (db : Registry) (id : Nat) (change : RegistrationToken → RegistrationToken)
    (hid : ∀ token, (change token).id = token.id)
    (hhash : ∀ token, (change token).tokenHash = token.tokenHash) : Registry where
  tokens := db.tokens.map fun token ↦ if token.id = id then change token else token
  operators := db.operators
  ids := by
    have hids : (db.tokens.map fun token ↦ if token.id = id then change token else token).map
        RegistrationToken.id = db.tokens.map RegistrationToken.id := by
      rw [List.map_map]
      refine List.map_congr_left fun token _ ↦ ?_
      rw [Function.comp_apply]
      split
      · exact hid token
      · rfl
    rw [hids]
    exact db.ids
  hashes := by
    have hhashes : (db.tokens.map fun token ↦ if token.id = id then change token else token).map
        RegistrationToken.tokenHash = db.tokens.map RegistrationToken.tokenHash := by
      rw [List.map_map]
      refine List.map_congr_left fun token _ ↦ ?_
      rw [Function.comp_apply]
      split
      · exact hhash token
      · rfl
    rw [hhashes]
    exact db.hashes

def Registry.useToken (db : Registry) (read : RegistrationToken) (now : ℚ) : Registry :=
  db.updateToken read.id
    (fun token ↦ { token with useCount := read.useCount + 1, lastUsedAt := some now })
    (fun _ ↦ rfl) fun _ ↦ rfl

/-! ### Operators -/

/-- `dict[key] = value`. -/
def setItem (items : Labels) (item : String × Value) : Labels :=
  if items.any fun i ↦ i.1 == item.1 then items.map fun i ↦ if i.1 = item.1 then item else i
  else items ++ [item]

def mergedLabels (token : RegistrationToken) (extraLabels : Labels) : Labels :=
  extraLabels.foldl setItem token.labels

def Registry.updateOperator (db : Registry) (operatorId : String)
    (change : ConnectedOperator → ConnectedOperator) : Registry :=
  { db with operators := db.operators.map fun op ↦
      if op.operatorId = operatorId then change op else op }

def ConnectedOperator.reregistered (op : ConnectedOperator) (token : RegistrationToken)
    (operatorVersion : Option String) (extraLabels : Labels) (now : ℚ) : ConnectedOperator :=
  { op with
    registrationTokenId := some token.id
    labels := mergedLabels token extraLabels
    operatorVersion := operatorVersion
    isConnected := true
    lastConnectedAt := some now
    status := .connected
    disconnectReason := none }

/-- `register_operator`: the rows, and the operator id. A cluster that is known keeps its row. -/
def registerOperator (db : Registry) (token : RegistrationToken) (clusterName : String)
    (operatorVersion : Option String) (extraLabels : Labels) (newId : String) (now : ℚ) :
    Registry × String :=
  match db.operators.find? fun op ↦ op.clusterName == clusterName with
  | some existing =>
    ((db.updateOperator existing.operatorId fun op ↦
      op.reregistered token operatorVersion extraLabels now).useToken token now, existing.operatorId)
  | none =>
    let op : ConnectedOperator :=
      { operatorId := newId, registrationTokenId := none, clusterName := clusterName }
    ({ db with
        operators := db.operators ++ [op.reregistered token operatorVersion extraLabels now] }.useToken
      token now, newId)

/-- `mark_operator_disconnected`. -/
def markOperatorDisconnected (db : Registry) (operatorId reason : String) (now : ℚ) : Registry :=
  db.updateOperator operatorId fun op ↦
    { op with
      isConnected := false
      lastDisconnectedAt := some now
      disconnectReason := some reason
      status := .disconnected }

/-- `update_operator_health`; a cluster entry that is no dict raises. -/
def updateOperatorHealth (db : Registry) (operatorId : String) (report : Labels) (now : ℚ) :
    Except Raised Registry :=
  if db.operators.any fun op ↦ op.operatorId == operatorId then
    match (report.lookup "cluster").getD (.dict []) with
    | .dict cluster =>
      .ok (db.updateOperator operatorId fun op ↦
        { op with
          lastHealthReport := .dict report
          lastHealthAt := some now
          lastHeartbeatAt := some now
          kubernetesVersion := (Value.dict cluster).get "kubernetes_version"
          nodeCount := (Value.dict cluster).get "node_count"
          nodesReady := (Value.dict cluster).get "nodes_ready" })
    | _ => .error .attributeError
  else .ok db

/-- `update_operator_heartbeat`. -/
def updateOperatorHeartbeat (db : Registry) (operatorId : String) (operatorVersion : Option String)
    (uptimeSeconds commandsExecuted : Option Int) (now : ℚ) : Registry :=
  db.updateOperator operatorId fun op ↦
    { op with
      lastHeartbeatAt := some now
      operatorVersion := (operatorVersion.filter (· ≠ "")).or op.operatorVersion
      uptimeSeconds := uptimeSeconds.getD op.uptimeSeconds
      commandsExecuted := commandsExecuted.getD op.commandsExecuted }

/-! ### Registration over either transport -/

inductive Transport
  | webSocket
  | polling
  deriving DecidableEq, Repr

/-- What an operator sends to register; over the WebSocket there is no connectivity mode. -/
structure Registration where
  clusterName : String
  operatorVersion : Option String := none
  labels : Labels := []
  connectivityMode : Option String := some "polling"

/-- `SessionLocal()` closed without a commit: the committed rows stay. -/
def Registry.closeSession (committed _session : Registry) : Registry := committed

/-- What `register_poll_operator` and the handler of the WebSocket make of a registration with a valid
token: the committed rows, and the operator id that is acknowledged. -/
def commitRegistration (db : Registry) (token : RegistrationToken) (transport : Transport)
    (body : Registration) (newId : String) (now : ℚ) : Registry × String :=
  let (session, operatorId) :=
    registerOperator db token body.clusterName body.operatorVersion body.labels newId now
  match transport with
  | .webSocket => (db.closeSession session, operatorId)
  | .polling =>
    (session.updateOperator operatorId fun op ↦
      { op with
        connectivityMode := (body.connectivityMode.filter (· ≠ "")).getD "polling" }, operatorId)

/-! ### What the functions leave alone -/

section

variable {db : Registry} {token read : RegistrationToken}

theorem validateRegistrationToken_eq_some {plaintext : String} {now : ℚ} :
    validateRegistrationToken db plaintext now = some token ↔
      token ∈ db.tokens ∧ token.tokenHash = hashToken plaintext ∧ token.isActive = true ∧
        token.isExpired now = false ∧ token.isExhausted = false := by
  rw [validateRegistrationToken, Option.bind_eq_some_iff]
  constructor
  · rintro ⟨found, hfound, hvalid⟩
    have hkey := find?_some hfound
    rw [Bool.and_eq_true, beq_iff_eq] at hkey
    split at hvalid
    · cases hvalid
    · next hnot =>
      cases hvalid
      rw [Bool.or_eq_true, not_or, Bool.not_eq_true, Bool.not_eq_true] at hnot
      exact ⟨mem_of_find?_eq_some hfound, hkey.1, hkey.2, hnot.1, hnot.2⟩
  · rintro ⟨hmem, hhash, hactive, hexpired, hexhausted⟩
    refine ⟨token, ?_, by rw [hexpired, hexhausted]; rfl⟩
    have hsome : (db.tokens.find? fun t ↦
        t.tokenHash == hashToken plaintext && t.isActive).isSome = true :=
      find?_isSome.mpr ⟨token, hmem, by simp [hhash, hactive]⟩
    obtain ⟨found, hfound⟩ := Option.isSome_iff_exists.mp hsome
    have hkey := find?_some hfound
    rw [Bool.and_eq_true, beq_iff_eq] at hkey
    rw [hfound, inj_on_of_nodup_map db.hashes (mem_of_find?_eq_some hfound) hmem
      (hkey.1.trans hhash.symm)]

theorem registerOperator_tokens {clusterName newId : String} {version : Option String}
    {labels : Labels} {now : ℚ} :
    (registerOperator db read clusterName version labels newId now).1.tokens =
      db.tokens.map fun t ↦
        if t.id = read.id then { t with useCount := read.useCount + 1, lastUsedAt := some now }
        else t := by
  unfold registerOperator
  split <;> rfl

theorem map_operatorId_updateOperator (db : Registry) (operatorId : String)
    (change : ConnectedOperator → ConnectedOperator)
    (hid : ∀ op, (change op).operatorId = op.operatorId) :
    (db.updateOperator operatorId change).operators.map ConnectedOperator.operatorId =
      db.operators.map ConnectedOperator.operatorId :=
  Assoc.map_map_ite hid _

theorem registerOperator_operators {clusterName newId : String} {version : Option String}
    {labels : Labels} {now : ℚ} {registered : Registry × String}
    (h : registerOperator db read clusterName version labels newId now = registered) :
    registered.2 ∈ registered.1.operators.map ConnectedOperator.operatorId ∧
      db.operators.map ConnectedOperator.operatorId ⊆
        registered.1.operators.map ConnectedOperator.operatorId := by
  subst h
  unfold registerOperator
  split
  · next existing hexisting =>
    have hids := map_operatorId_updateOperator db existing.operatorId
      (fun op ↦ op.reregistered read version labels now) fun _ ↦ rfl
    simp only [Registry.useToken, Registry.updateToken]
    rw [hids]
    exact ⟨mem_map_of_mem (mem_of_find?_eq_some hexisting), List.Subset.refl _⟩
  · simp only [Registry.useToken, Registry.updateToken, map_append, map_cons, map_nil,
      ConnectedOperator.reregistered]
    exact ⟨mem_append_right _ (mem_singleton_self _), subset_append_left _ _⟩

end

end BnkForge.Operators
