import BnkForge.Lib.ExceptResult
import BnkForge.Lib.Transition
import BnkForge.Operators.Registry

/-!
# What a registration token is good for

Operators register over the WebSocket (`backend/routes/operator_ws.py:74–141`) or by
`register_poll_operator` (`backend/routes/operator_polling.py:114–160`): the token is validated first,
and the registration is made in a later step. With the same token they poll and submit results
(`:40–65`, `:167–301`). Registrations and requests of any number of operators come in any order.
-/

namespace BnkForge.Operators

open Python Transition List

/-! ### The requests -/

/-- What a request of a polling operator is refused with. -/
inductive RequestError
  | unauthorized
  | notFound (entity id : String)
  deriving DecidableEq, Repr

/-- `_validate_operator_token`. -/
def validateOperatorToken (db : Registry) (plaintext : String) (now : ℚ) :
    Except RequestError RegistrationToken :=
  match validateRegistrationToken db plaintext now with
  | some token => .ok token
  | none => .error .unauthorized

def ConnectedOperator.polled (op : ConnectedOperator) (now : ℚ) : ConnectedOperator :=
  { op with
    lastHeartbeatAt := some now
    isConnected := true
    lastConnectedAt := if op.isConnected then op.lastConnectedAt else some now
    status := if op.isConnected then op.status else .connected }

/-- The first half of `poll_commands`. -/
def pollHeartbeat (db : Registry) (plaintext operatorId : String) (now : ℚ) :
    Except RequestError Registry := do
  let _ ← validateOperatorToken db plaintext now
  if db.operators.any fun op ↦ op.operatorId == operatorId then
    return db.updateOperator operatorId fun op ↦ op.polled now
  else throw (.notFound "operator" operatorId)

/-! ### The system -/

/-- The committed rows, the tokens that registrations under way have read, and the registrations that
were acknowledged, with their token and operator. The program does not keep the last. -/
structure Registrations where
  db : Registry
  validated : Nat → Option RegistrationToken
  succeeded : List (Nat × String)

inductive RegistrationEvent
  /-- `create_registration_token`. -/
  | create (token : RegistrationToken)
  | revoke (tokenId : Nat)
  | validate (registration : Nat) (plaintext : String) (now : ℚ)
  | register (registration : Nat) (transport : Transport) (body : Registration) (newId : String)
      (now : ℚ)
  | drop (registration : Nat)
  | poll (plaintext operatorId : String) (now : ℚ)
  | submit (plaintext operatorId : String) (now : ℚ)

def Registry.insertToken (db : Registry) (token : RegistrationToken)
    (hid : token.id ∉ db.tokens.map RegistrationToken.id)
    (hhash : token.tokenHash ∉ db.tokens.map RegistrationToken.tokenHash) : Registry where
  tokens := db.tokens ++ [token]
  operators := db.operators
  ids := by
    rw [List.map_append, List.map_singleton, ← List.concat_eq_append, List.nodup_concat]
    exact ⟨hid, db.ids⟩
  hashes := by
    rw [List.map_append, List.map_singleton, ← List.concat_eq_append, List.nodup_concat]
    exact ⟨hhash, db.hashes⟩

def Registry.revokeToken (db : Registry) (tokenId : Nat) : Registry :=
  db.updateToken tokenId (fun token ↦ { token with isActive := false }) (fun _ ↦ rfl) fun _ ↦ rfl

/-- The row of a new token: nothing has been registered with it. -/
def RegistrationToken.fresh (token : RegistrationToken) : RegistrationToken :=
  { token with useCount := 0, isActive := true }

section

local instance lawfulTokenHash : LawfulBEq (List Char) := inferInstance

def registrationStep (s : Registrations) : RegistrationEvent → Option Registrations
  | .create token =>
    if hid : token.fresh.id ∉ s.db.tokens.map RegistrationToken.id then
      if hhash : token.fresh.tokenHash ∉ s.db.tokens.map RegistrationToken.tokenHash then
        some { s with db := s.db.insertToken token.fresh hid hhash }
      else none
    else none
  | .revoke tokenId =>
    some { s with db := s.db.revokeToken tokenId }
  | .validate registration plaintext now =>
    (validateRegistrationToken s.db plaintext now).map fun token ↦
      { s with validated := Function.update s.validated registration (some token) }
  | .register registration transport body newId now =>
    (s.validated registration).map fun token ↦
      let (db, operatorId) := commitRegistration s.db token transport body newId now
      { db := db
        validated := Function.update s.validated registration none
        succeeded := s.succeeded ++ [(token.id, operatorId)] }
  | .drop registration =>
    some { s with validated := Function.update s.validated registration none }
  | .poll plaintext operatorId now =>
    some { s with db := match pollHeartbeat s.db plaintext operatorId now with
      | .ok db => db
      | .error _ => s.db }
  | .submit _ _ _ => some s

end

def WithinUses (s : Registrations) : Prop :=
  ∀ token ∈ s.db.tokens, ∀ n ∈ token.maxUses,
    s.succeeded.countP (fun r ↦ r.1 == token.id) ≤ n

def Registrations.Member (s : Registrations) (plaintext operatorId : String) (now : ℚ) : Prop :=
  ∃ token ∈ s.db.tokens, token.tokenHash = hashToken plaintext ∧ token.isActive = true ∧
    token.isExpired now = false ∧ (token.id, operatorId) ∈ s.succeeded

def LetsMembersIn (s : Registrations) : RegistrationEvent → Prop
  | .poll plaintext operatorId now => s.Member plaintext operatorId now →
    (pollHeartbeat s.db plaintext operatorId now).isOk = true
  | .submit plaintext operatorId now => s.Member plaintext operatorId now →
    (validateOperatorToken s.db plaintext now).isOk = true
  | _ => True

def TokenHolds (s : Registrations) (e : RegistrationEvent) (t : Registrations) : Prop :=
  WithinUses t ∧ LetsMembersIn s e

def Registry.HasUses (db : Registry) (plaintext : String) : Prop :=
  ∀ token ∈ db.tokens, token.tokenHash = hashToken plaintext → token.isExhausted = false

def CountedInTurn (s : Registrations) : RegistrationEvent → Prop
  | .register registration transport _ _ _ => transport = .polling ∧
    ∀ read ∈ s.validated registration, ∀ token ∈ s.db.tokens, token.id = read.id →
      token.useCount = read.useCount
  | .poll plaintext _ _ => s.db.HasUses plaintext
  | .submit plaintext _ _ => s.db.HasUses plaintext
  | _ => True

instance (s : Registrations) (plaintext operatorId : String) (now : ℚ) :
    Decidable (s.Member plaintext operatorId now) :=
  inferInstanceAs (Decidable (∃ token ∈ s.db.tokens, token.tokenHash = hashToken plaintext ∧
    token.isActive = true ∧ token.isExpired now = false ∧ (token.id, operatorId) ∈ s.succeeded))

instance (s : Registrations) : Decidable (WithinUses s) :=
  inferInstanceAs (Decidable (∀ token ∈ s.db.tokens, ∀ n ∈ token.maxUses,
    s.succeeded.countP (fun r ↦ r.1 == token.id) ≤ n))

instance (s : Registrations) (e : RegistrationEvent) : Decidable (LetsMembersIn s e) :=
  match e with
  | .poll plaintext operatorId now => inferInstanceAs (Decidable (s.Member plaintext operatorId now →
      (pollHeartbeat s.db plaintext operatorId now).isOk = true))
  | .submit plaintext operatorId now =>
    inferInstanceAs (Decidable (s.Member plaintext operatorId now →
      (validateOperatorToken s.db plaintext now).isOk = true))
  | .create _ | .revoke _ | .validate .. | .register .. | .drop _ => isTrue trivial

instance (db : Registry) (plaintext : String) : Decidable (db.HasUses plaintext) :=
  inferInstanceAs (Decidable (∀ token ∈ db.tokens, token.tokenHash = hashToken plaintext →
    token.isExhausted = false))

instance (s : Registrations) (e : RegistrationEvent) : Decidable (CountedInTurn s e) :=
  match e with
  | .register registration transport _ _ _ => inferInstanceAs (Decidable (transport = .polling ∧
      ∀ read ∈ s.validated registration, ∀ token ∈ s.db.tokens, token.id = read.id →
        token.useCount = read.useCount))
  | .poll plaintext _ _ | .submit plaintext _ _ =>
    inferInstanceAs (Decidable (s.db.HasUses plaintext))
  | .create _ | .revoke _ | .validate .. | .drop _ => isTrue trivial

/-! ### What the runs keep -/

structure RegistrationInv (s : Registrations) : Prop where
  count : ∀ token ∈ s.db.tokens,
    token.useCount = s.succeeded.countP (fun r ↦ r.1 == token.id)
  within : ∀ token ∈ s.db.tokens, ∀ n ∈ token.maxUses, token.useCount ≤ n
  validated : ∀ k read, s.validated k = some read → read.isExhausted = false ∧
    ∃ token ∈ s.db.tokens, token.id = read.id ∧ token.maxUses = read.maxUses
  tokens : ∀ r ∈ s.succeeded, r.1 ∈ s.db.tokens.map RegistrationToken.id
  operators : ∀ r ∈ s.succeeded, r.2 ∈ s.db.operators.map ConnectedOperator.operatorId

def Registrations.start (db : Registry) : Registrations := ⟨db, fun _ ↦ none, []⟩

section

variable {s t : Registrations}

theorem registrationInv_start {db : Registry} (h : ∀ token ∈ db.tokens, token.useCount = 0) :
    RegistrationInv (.start db) where
  count token htoken := h token htoken
  within token htoken n _ := by rw [h token htoken]; exact Nat.zero_le n
  validated := nofun
  tokens := nofun
  operators := nofun

theorem RegistrationInv.withinUses (h : RegistrationInv s) : WithinUses s := fun token htoken n hn ↦
  (h.count token htoken) ▸ h.within token htoken n hn

theorem RegistrationInv.validate (h : RegistrationInv s) {plaintext operatorId : String} {now : ℚ}
    (huses : s.db.HasUses plaintext) (hmember : s.Member plaintext operatorId now) :
    (∃ token, validateOperatorToken s.db plaintext now = .ok token) ∧
      s.db.operators.any (fun op ↦ op.operatorId == operatorId) = true := by
  obtain ⟨token, htoken, hhash, hactive, hexpired, hsucceeded⟩ := hmember
  constructor
  · refine ⟨token, ?_⟩
    rw [validateOperatorToken, validateRegistrationToken_eq_some.mpr
      ⟨htoken, hhash, hactive, hexpired, huses token htoken hhash⟩]
  · obtain ⟨op, hop, hid⟩ := mem_map.mp (h.operators _ hsucceeded)
    exact any_eq_true.mpr ⟨op, hop, beq_iff_eq.mpr hid⟩

theorem RegistrationInv.letsMembersIn (h : RegistrationInv s) {e : RegistrationEvent}
    (hok : CountedInTurn s e) : LetsMembersIn s e := by
  cases e with
  | poll plaintext operatorId now =>
    intro hmember
    obtain ⟨⟨token, htoken⟩, hop⟩ := h.validate hok hmember
    simp only [pollHeartbeat, htoken, hop, if_true]
    rfl
  | submit plaintext operatorId now =>
    intro hmember
    obtain ⟨⟨token, htoken⟩, -⟩ := h.validate hok hmember
    rw [htoken]
    rfl
  | _ => trivial

theorem RegistrationInv.insertToken (h : RegistrationInv s) {token : RegistrationToken}
    (hid : token.fresh.id ∉ s.db.tokens.map RegistrationToken.id)
    (hhash : token.fresh.tokenHash ∉ s.db.tokens.map RegistrationToken.tokenHash) :
    RegistrationInv { s with db := s.db.insertToken token.fresh hid hhash } where
  count t ht := by
    rcases mem_append.mp ht with ht | ht
    · exact h.count t ht
    · cases mem_singleton.mp ht
      have hnone : s.succeeded.countP (fun r ↦ r.1 == token.fresh.id) = 0 := by
        rw [countP_eq_zero]
        intro r hr hrid
        rw [beq_iff_eq] at hrid
        exact hid (hrid ▸ h.tokens r hr)
      exact hnone.symm
  within t ht n hn := by
    rcases mem_append.mp ht with ht | ht
    · exact h.within t ht n hn
    · cases mem_singleton.mp ht
      exact Nat.zero_le n
  validated k read hread := by
    obtain ⟨hexhausted, t, ht, hsame⟩ := h.validated k read hread
    exact ⟨hexhausted, t, mem_append_left _ ht, hsame⟩
  tokens r hr := by
    obtain ⟨t, ht, hrid⟩ := mem_map.mp (h.tokens r hr)
    exact mem_map.mpr ⟨t, mem_append_left _ ht, hrid⟩
  operators := h.operators

theorem RegistrationInv.updateToken (h : RegistrationInv s) {id : Nat}
    (change : RegistrationToken → RegistrationToken) (hid : ∀ token, (change token).id = token.id)
    (hhash : ∀ token, (change token).tokenHash = token.tokenHash)
    (hmax : ∀ token, (change token).maxUses = token.maxUses)
    (hcount : ∀ token, (change token).useCount = token.useCount) :
    RegistrationInv { s with db := s.db.updateToken id change hid hhash } := by
  have hsame : ∀ token : RegistrationToken,
      (if token.id = id then change token else token).id = token.id ∧
        (if token.id = id then change token else token).maxUses = token.maxUses ∧
        (if token.id = id then change token else token).useCount = token.useCount := by
    intro token
    split
    · exact ⟨hid token, hmax token, hcount token⟩
    · exact ⟨rfl, rfl, rfl⟩
  refine ⟨fun t ht ↦ ?_, fun t ht n hn ↦ ?_, fun k read hread ↦ ?_, fun r hr ↦ ?_, h.operators⟩
  · obtain ⟨token, htoken, rfl⟩ := mem_map.mp ht
    rw [(hsame token).1, (hsame token).2.2]
    exact h.count token htoken
  · obtain ⟨token, htoken, rfl⟩ := mem_map.mp ht
    rw [(hsame token).2.2]
    exact h.within token htoken n ((hsame token).2.1 ▸ hn)
  · obtain ⟨hexhausted, token, htoken, hread₁, hread₂⟩ := h.validated k read hread
    exact ⟨hexhausted, _, mem_map_of_mem htoken, (hsame token).1.trans hread₁,
      (hsame token).2.1.trans hread₂⟩
  · obtain ⟨token, htoken, hrid⟩ := mem_map.mp (h.tokens r hr)
    exact mem_map.mpr ⟨_, mem_map_of_mem htoken, (hsame token).1.trans hrid⟩

theorem RegistrationInv.validate_step (h : RegistrationInv s) {registration : Nat}
    {plaintext : String} {now : ℚ} {token : RegistrationToken}
    (hvalid : validateRegistrationToken s.db plaintext now = some token) :
    RegistrationInv { s with validated := Function.update s.validated registration (some token) } :=
  { h with
    validated := by
      intro k read (hread : Function.update s.validated registration (some token) k = some read)
      obtain ⟨htoken, -, -, -, hexhausted⟩ := validateRegistrationToken_eq_some.mp hvalid
      rcases eq_or_ne k registration with rfl | hk
      · rw [Function.update_self] at hread
        cases hread
        exact ⟨hexhausted, token, htoken, rfl, rfl⟩
      · rw [Function.update_of_ne hk] at hread
        exact h.validated k read hread }

theorem RegistrationInv.drop (h : RegistrationInv s) (registration : Nat) :
    RegistrationInv { s with validated := Function.update s.validated registration none } :=
  { h with
    validated := by
      intro k read (hread : Function.update s.validated registration none k = some read)
      rcases eq_or_ne k registration with rfl | hk
      · rw [Function.update_self] at hread
        cases hread
      · rw [Function.update_of_ne hk] at hread
        exact h.validated k read hread }

theorem RegistrationInv.register (h : RegistrationInv s) {registration : Nat}
    {body : Registration} {newId : String} {now : ℚ} {read : RegistrationToken}
    (hread : s.validated registration = some read)
    (hcurrent : ∀ token ∈ s.db.tokens, token.id = read.id → token.useCount = read.useCount)
    {committed : Registry × String}
    (hcommit : commitRegistration s.db read .polling body newId now = committed) :
    RegistrationInv
      { db := committed.1
        validated := Function.update s.validated registration none
        succeeded := s.succeeded ++ [(read.id, committed.2)] } := by
  obtain ⟨registered, hregistered⟩ : ∃ registered, registerOperator s.db read body.clusterName
    body.operatorVersion body.labels newId now = registered := ⟨_, rfl⟩
  have hids := map_operatorId_updateOperator registered.1 registered.2
    (fun op ↦ { op with
      connectivityMode := (body.connectivityMode.filter (· ≠ "")).getD "polling" }) fun _ ↦ rfl
  have htokens : committed.1.tokens = s.db.tokens.map fun t ↦
      if t.id = read.id then { t with useCount := read.useCount + 1, lastUsedAt := some now }
      else t := by
    rw [← hcommit, ← registerOperator_tokens]
    rfl
  have hops : committed.2 = registered.2 ∧ committed.1.operators.map ConnectedOperator.operatorId =
      registered.1.operators.map ConnectedOperator.operatorId := by
    rw [← hcommit, ← hids, ← hregistered]
    exact ⟨rfl, rfl⟩
  obtain ⟨hnew, hold⟩ := registerOperator_operators hregistered
  have hcount : ∀ token : RegistrationToken,
      (s.succeeded ++ [(read.id, committed.2)]).countP (fun r ↦ r.1 == token.id) =
        s.succeeded.countP (fun r ↦ r.1 == token.id) + if token.id = read.id then 1 else 0 := by
    intro token
    rw [countP_append, countP_singleton]
    congr 1
    exact if_congr (beq_iff_eq.trans eq_comm) rfl rfl
  refine ⟨fun t ht ↦ ?_, fun t ht n hn ↦ ?_, fun k read' hread' ↦ ?_, fun r hr ↦ ?_,
    fun r hr ↦ ?_⟩
  · obtain ⟨token, htoken, rfl⟩ := mem_map.mp (htokens ▸ ht)
    have hbefore := h.count token htoken
    split
    · next hid =>
      rw [hcount, if_pos hid, ← hbefore, hcurrent token htoken hid]
    · next hid => rw [hcount, if_neg hid, ← hbefore, Nat.add_zero]
  · obtain ⟨token, htoken, rfl⟩ := mem_map.mp (htokens ▸ ht)
    split at hn
    · next hid =>
      -- the token that was read had a use left, and the number of uses of a token does not change
      obtain ⟨hexhausted, token', htoken', hid', hmax⟩ := h.validated registration read hread
      cases inj_on_of_nodup_map s.db.ids htoken htoken' (hid.trans hid'.symm)
      rw [RegistrationToken.isExhausted, ← hmax, hn, Option.any_some, decide_eq_false_iff_not,
        not_le] at hexhausted
      rw [if_pos hid]
      exact hexhausted
    · next hid =>
      rw [if_neg hid]
      exact h.within token htoken n hn
  · have hread'' := (h.drop registration).validated k read' hread'
    obtain ⟨hexhausted, token, htoken, hid, hmax⟩ := hread''
    refine ⟨hexhausted, _, htokens ▸ mem_map_of_mem htoken, ?_⟩
    split
    · exact ⟨hid, hmax⟩
    · exact ⟨hid, hmax⟩
  · have hsame : committed.1.tokens.map RegistrationToken.id =
        s.db.tokens.map RegistrationToken.id := by
      rw [htokens, map_map]
      refine map_congr_left fun token _ ↦ ?_
      rw [Function.comp_apply]
      split <;> rfl
    rw [hsame]
    rcases mem_append.mp hr with hr | hr
    · exact h.tokens r hr
    · cases mem_singleton.mp hr
      obtain ⟨-, token, htoken, hid, -⟩ := h.validated registration read hread
      exact mem_map.mpr ⟨token, htoken, hid⟩
  · rw [hops.2]
    rcases mem_append.mp hr with hr | hr
    · exact hold (h.operators r hr)
    · cases mem_singleton.mp hr
      exact hops.1 ▸ hnew

theorem RegistrationInv.poll (h : RegistrationInv s) {plaintext operatorId : String} {now : ℚ}
    {db : Registry} (hpoll : pollHeartbeat s.db plaintext operatorId now = .ok db) :
    RegistrationInv { s with db := db } := by
  obtain ⟨token, -, hpoll⟩ := ExceptResult.bind_eq_ok.mp hpoll
  split at hpoll
  · cases hpoll
    exact { h with
      operators := fun r hr ↦ by
        rw [map_operatorId_updateOperator _ _ (fun op ↦ op.polled now) fun _ ↦ rfl]
        exact h.operators r hr }
  · cases hpoll

theorem RegistrationInv.step (h : RegistrationInv s) {e : RegistrationEvent}
    (hok : CountedInTurn s e) (hst : registrationStep s e = some t) : RegistrationInv t := by
  cases e with
  | create token =>
    simp only [registrationStep] at hst
    split at hst
    · split at hst
      · cases hst
        exact h.insertToken _ _
      · cases hst
    · cases hst
  | revoke tokenId =>
    cases hst
    exact h.updateToken (fun token ↦ { token with isActive := false }) (fun _ ↦ rfl)
      (fun _ ↦ rfl) (fun _ ↦ rfl) fun _ ↦ rfl
  | validate registration plaintext now =>
    obtain ⟨token, hvalid, rfl⟩ := Option.map_eq_some_iff.mp hst
    exact h.validate_step hvalid
  | register registration transport body newId now =>
    obtain ⟨read, hread, rfl⟩ := Option.map_eq_some_iff.mp hst
    obtain ⟨rfl, hcurrent⟩ := hok
    exact h.register hread (hcurrent read hread) rfl
  | drop registration =>
    cases hst
    exact h.drop _
  | poll plaintext operatorId now =>
    simp only [registrationStep] at hst
    split at hst
    · next db hpoll =>
      cases hst
      exact h.poll hpoll
    · cases hst
      exact h
  | submit plaintext operatorId now =>
    cases hst
    exact h

end

/-- Where registrations are made by polling, on the count of their token, and operators use tokens
that are not used up, a token is used for no more registrations than it is for, and who has registered
is let in. -/
theorem token_holds {db : Registry} (hdb : ∀ token ∈ db.tokens, token.useCount = 0)
    {es : List RegistrationEvent} {s : Registrations}
    (h : Run registrationStep CountedInTurn (.start db) es s) :
    AllSteps registrationStep TokenHolds (.start db) es :=
  h.allSteps (registrationInv_start hdb) fun _ _ _ ha hok hst ↦
    ⟨ha.step hok hst, (ha.step hok hst).withinUses, ha.letsMembersIn hok⟩

/-! ### Two operators and a token for one -/

/-- The token `t` for one registration. -/
def single : RegistrationToken := { id := 1, tokenHash := hashToken "t", maxUses := some 1 }

def noTokens : Registry := ⟨[], [], List.nodup_nil, List.nodup_nil⟩

def registeredTwice : List RegistrationEvent :=
  [.create single, .create { id := 2, tokenHash := hashToken "u" }, .validate 0 "t" 0,
    .register 0 .polling { clusterName := "edge" } "op-1" 0, .validate 0 "u" 0,
    .register 0 .polling { clusterName := "edge" } "op-2" 0, .poll "u" "op-1" 1, .submit "u" "op-1" 1]

theorem registeredTwice_holds :
    ∃ s, Run registrationStep CountedInTurn (.start noTokens) registeredTwice s ∧
      s.succeeded = [(1, "op-1"), (2, "op-1")] ∧
      AllSteps registrationStep TokenHolds (.start noTokens) registeredTwice := by
  obtain ⟨s, hrun, hsucceeded⟩ : ∃ s, Run registrationStep CountedInTurn (.start noTokens)
      registeredTwice s ∧ s.succeeded = [(1, "op-1"), (2, "op-1")] :=
    Run.exists_of_exec (by decide +kernel)
  exact ⟨s, hrun, hsucceeded, token_holds (List.forall_mem_nil _) hrun⟩

/-- Two registrations are validated before either is made. -/
def registeredBeyond : List RegistrationEvent :=
  [.create single, .validate 0 "t" 0, .validate 1 "t" 0,
    .register 0 .polling { clusterName := "edge" } "op-1" 0,
    .register 1 .polling { clusterName := "core" } "op-2" 0]

/-- The one operator that the token is for registers. -/
def registered : List RegistrationEvent :=
  [.create single, .validate 0 "t" 0, .register 0 .polling { clusterName := "edge" } "op-1" 0]

/-- Two operators register with a token for one; and one that has registered is refused. -/
theorem registered_beyond_and_refused :
    (∃ s, Run registrationStep Free (.start noTokens) registeredBeyond s ∧ ¬ WithinUses s) ∧
    (∃ s, Run registrationStep Free (.start noTokens) registered s ∧
      ¬ LetsMembersIn s (.poll "t" "op-1" 1)) ∧
    ¬ ∀ db : Registry, (∀ token ∈ db.tokens, token.useCount = 0) → ∀ es s,
      Run registrationStep Free (.start db) es s →
        AllSteps registrationStep TokenHolds (.start db) es := by
  have hbeyond : (exec registrationStep (.start noTokens) registeredBeyond).isSome = true := by
    decide +kernel
  have hregistered : (exec registrationStep (.start noTokens) registered).isSome = true := by
    decide +kernel
  have hrun := Run.free_iff_exec.mpr (Option.some_get hregistered).symm
  refine ⟨⟨_, Run.free_iff_exec.mpr (Option.some_get hbeyond).symm, by decide +kernel +revert⟩,
    ⟨_, hrun, by clear hrun; decide +kernel +revert⟩, fun h ↦ ?_⟩
  have hall := h noTokens (List.forall_mem_nil _) (registered ++ [.poll "t" "op-1" 1]) _
    (hrun.append (.single trivial rfl))
  have hlets := (hrun.allSteps_last hall rfl).2
  clear hrun
  revert hlets
  decide +kernel +revert

end BnkForge.Operators
