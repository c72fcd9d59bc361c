import BnkForge.Operators.Registry

/-!
# The record that an operator leaves

The events of an operator are delivered over the WebSocket (`backend/routes/operator_ws.py:74–237`) or
through the polling endpoints (`backend/routes/operator_polling.py:114–160`, `:308–357`). A polling
endpoint commits its session; a handler of the WebSocket closes every session of its own without.
-/

namespace BnkForge.Operators

open Python List

/-! ### The events -/

/-- What an operator does. The token is one of the operator's headers; the id that a registration
generates depends on how it is delivered. -/
inductive OperatorEvent
  | register (plaintext : String) (body : Registration) (newId : Transport → String) (now : ℚ)
  | heartbeat (plaintext : String) (operatorVersion : Option String)
    (uptimeSeconds commandsExecuted : Option Int) (now : ℚ)
  | health (plaintext : String) (cluster bnk : Option Labels) (now : ℚ)
  | disconnect (now : ℚ)

structure Acknowledged where
  session : Registry
  committed : Registry

/-- The committed rows, the operator id that the operator goes by, and the registrations that were
acknowledged. -/
structure Delivery where
  db : Registry
  operatorId : Option String := none
  acknowledged : List Acknowledged := []

namespace Delivery

def register (s : Delivery) (transport : Transport) (plaintext : String) (body : Registration)
    (newId : String) (now : ℚ) : Delivery :=
  match validateRegistrationToken s.db plaintext now with
  | none => s
  | some token =>
    let session :=
      registerOperator s.db token body.clusterName body.operatorVersion body.labels newId now
    let (db, operatorId) := commitRegistration s.db token transport body newId now
    { db := db
      operatorId := some operatorId
      acknowledged := s.acknowledged ++ [⟨session.1, db⟩] }

/-- The `finally` of the handler of a WebSocket. -/
def cleanUp (s : Delivery) (operatorId : String) (now : ℚ) : Delivery :=
  { s with
    db := s.db.closeSession (markOperatorDisconnected s.db operatorId "websocket_closed" now)
    operatorId := none }

/-- The body of a request or a message without the fields that are missing. -/
def reportOf (cluster bnk : Option Labels) : Labels :=
  (cluster.map fun c ↦ ("cluster", .dict c)).toList ++ (bnk.map fun b ↦ ("bnk", .dict b)).toList

def webSocket (s : Delivery) : OperatorEvent → Delivery
  | .register plaintext body newId now =>
    s.register .webSocket plaintext body (newId .webSocket) now
  | .heartbeat _ operatorVersion uptimeSeconds commandsExecuted now =>
    match s.operatorId with
    | none => s
    | some id => { s with
        db := s.db.closeSession (updateOperatorHeartbeat s.db id operatorVersion uptimeSeconds
          commandsExecuted now) }
  | .health _ cluster bnk now =>
    match s.operatorId with
    | none => s
    | some id =>
      match updateOperatorHealth s.db id (("type", .str "health") :: reportOf cluster bnk) now with
      | .ok session => { s with db := s.db.closeSession session }
      | .error _ => s.cleanUp id now
  | .disconnect now =>
    match s.operatorId with
    | none => s
    | some id => s.cleanUp id now

/-- An event is delivered through the polling endpoints, which have none for a disconnect. Empty parts
of a report are left out. -/
def polling (s : Delivery) : OperatorEvent → Delivery
  | .register plaintext body newId now => s.register .polling plaintext body (newId .polling) now
  | .heartbeat plaintext operatorVersion uptimeSeconds commandsExecuted now =>
    match s.operatorId, validateRegistrationToken s.db plaintext now with
    | some id, some _ =>
      { s with db :=
          updateOperatorHeartbeat s.db id operatorVersion uptimeSeconds commandsExecuted now }
    | _, _ => s
  | .health plaintext cluster bnk now =>
    match s.operatorId, validateRegistrationToken s.db plaintext now with
    | some id, some _ =>
      match updateOperatorHealth s.db id (reportOf (cluster.filter (· ≠ [])) (bnk.filter (· ≠ [])))
        now with
      | .ok db => { s with db := db }
      | .error _ => s
    | _, _ => s
  | .disconnect _ => s

end Delivery

/-! ### What is compared -/

def RegistrationToken.untimed (token : RegistrationToken) : RegistrationToken :=
  { token with lastUsedAt := none }

def ConnectedOperator.anonymous (op : ConnectedOperator) : ConnectedOperator :=
  { op with
    operatorId := ""
    connectivityMode := ""
    lastHeartbeatAt := none
    lastConnectedAt := none
    lastDisconnectedAt := none
    lastHealthAt := none }

/-- The rows up to times, generated ids and connectivity modes. -/
def Registry.record (db : Registry) : List RegistrationToken × List ConnectedOperator :=
  (db.tokens.map RegistrationToken.untimed, db.operators.map ConnectedOperator.anonymous)

def Delivery.AllCommitted (s : Delivery) : Prop :=
  ∀ a ∈ s.acknowledged, a.committed.record = a.session.record

def SameRecord (db : Registry) (es : List OperatorEvent) : Prop :=
  let socket := es.foldl Delivery.webSocket { db := db }
  let polled := es.foldl Delivery.polling { db := db }
  socket.db.record = polled.db.record ∧ socket.AllCommitted ∧ polled.AllCommitted

def OperatorEvent.Refused (db : Registry) : OperatorEvent → Prop
  | .register plaintext _ _ now => validateRegistrationToken db plaintext now = none
  | _ => True

/-! ### Over the WebSocket -/

section

variable {s : Delivery} {e : OperatorEvent} {es : List OperatorEvent}

theorem webSocket_db : (s.webSocket e).db = s.db := by
  cases e with
  | register plaintext body newId now =>
    simp only [Delivery.webSocket, Delivery.register]
    split <;> rfl
  | health plaintext cluster bnk now =>
    simp only [Delivery.webSocket]
    split
    · rfl
    · split <;> rfl
  | _ =>
    simp only [Delivery.webSocket]
    split <;> rfl

theorem record_registerOperator_ne {db : Registry} {plaintext clusterName newId : String}
    {token : RegistrationToken} {version : Option String} {labels : Labels} {now now' : ℚ}
    (hvalid : validateRegistrationToken db plaintext now' = some token) :
    (registerOperator db token clusterName version labels newId now).1.record ≠ db.record := by
  intro hrecord
  have htokens := congrArg Prod.fst hrecord
  simp only [Registry.record, registerOperator_tokens, map_map] at htokens
  have htoken := map_inj_left.mp htokens token (validateRegistrationToken_eq_some.mp hvalid).1
  have hcount := congrArg RegistrationToken.useCount htoken
  simp only [Function.comp_apply, if_true, RegistrationToken.untimed] at hcount
  exact Nat.succ_ne_self _ hcount

theorem refused_of_allCommitted (h : (s.webSocket e).AllCommitted) :
    s.AllCommitted ∧ e.Refused s.db := by
  cases e with
  | register plaintext body newId now =>
    simp only [Delivery.webSocket, Delivery.register] at h
    split at h
    · next hrefused => exact ⟨h, hrefused⟩
    · next token hvalid =>
      have hlost := h _ (mem_append_right _ (mem_singleton_self _))
      exact absurd hlost.symm (record_registerOperator_ne hvalid)
  | health plaintext cluster bnk now =>
    simp only [Delivery.webSocket] at h
    split at h
    · exact ⟨h, trivial⟩
    · split at h
      · exact ⟨h, trivial⟩
      · exact ⟨h, trivial⟩
  | _ =>
    simp only [Delivery.webSocket] at h
    split at h
    · exact ⟨h, trivial⟩
    · exact ⟨h, trivial⟩

theorem refused_of_allCommitted_foldl (h : (es.foldl Delivery.webSocket s).AllCommitted) :
    s.AllCommitted ∧ ∀ e ∈ es, e.Refused s.db := by
  induction es generalizing s with
  | nil => exact ⟨h, forall_mem_nil _⟩
  | cons e es ih =>
    obtain ⟨hcommitted, hrefused⟩ := ih h
    obtain ⟨hbefore, he⟩ := refused_of_allCommitted hcommitted
    rw [webSocket_db] at hrefused
    exact ⟨hbefore, forall_mem_cons.mpr ⟨he, hrefused⟩⟩

/-! ### Where every registration is refused -/

theorem register_refused {transport : Transport} {plaintext newId : String} {body : Registration}
    {now : ℚ} (h : validateRegistrationToken s.db plaintext now = none) :
    s.register transport plaintext body newId now = s := by
  rw [Delivery.register, h]

theorem webSocket_refused (hid : s.operatorId = none) (h : e.Refused s.db) : s.webSocket e = s := by
  cases e with
  | register plaintext body newId now =>
    rw [Delivery.webSocket]
    exact register_refused h
  | _ => simp only [Delivery.webSocket, hid]

theorem polling_refused (hid : s.operatorId = none) (h : e.Refused s.db) : s.polling e = s := by
  cases e with
  | register plaintext body newId now =>
    rw [Delivery.polling]
    exact register_refused h
  | _ => simp only [Delivery.polling, hid]

theorem foldl_refused {step : Delivery → OperatorEvent → Delivery}
    (hstep : ∀ e ∈ es, step s e = s) : es.foldl step s = s := by
  induction es with
  | nil => rfl
  | cons e es ih =>
    obtain ⟨he, hes⟩ := forall_mem_cons.mp hstep
    rw [foldl_cons, he, ih hes]

/-! ### Over the polling endpoints -/

theorem record_updateOperator {db : Registry} {operatorId : String}
    {change : ConnectedOperator → ConnectedOperator}
    (h : ∀ op, (change op).anonymous = op.anonymous) :
    (db.updateOperator operatorId change).record = db.record :=
  Prod.ext rfl (Assoc.map_map_ite h _)

theorem allCommitted_polling (h : s.AllCommitted) : (s.polling e).AllCommitted := by
  cases e with
  | register plaintext body newId now =>
    simp only [Delivery.polling, Delivery.register]
    split
    · exact h
    · intro a ha
      rcases mem_append.mp ha with ha | ha
      · exact h a ha
      · cases mem_singleton.mp ha
        exact record_updateOperator fun _ ↦ rfl
  | health plaintext cluster bnk now =>
    simp only [Delivery.polling]
    split
    · split
      · exact h
      · exact h
    · exact h
  | heartbeat plaintext operatorVersion uptimeSeconds commandsExecuted now =>
    simp only [Delivery.polling]
    split
    · exact h
    · exact h
  | disconnect now => exact h

theorem allCommitted_foldl_polling (h : s.AllCommitted) :
    (es.foldl Delivery.polling s).AllCommitted := by
  induction es generalizing s with
  | nil => exact h
  | cons e es ih => exact ih (allCommitted_polling h)

end

/-- The events of an operator leave the same record over both transports, with every registration that
is acknowledged committed, if and only if no registration has a token that is valid. -/
theorem same_record_iff (db : Registry) (es : List OperatorEvent) :
    SameRecord db es ↔ ∀ e ∈ es, e.Refused db := by
  constructor
  · rintro ⟨-, hcommitted, -⟩
    exact (refused_of_allCommitted_foldl hcommitted).2
  · intro h
    have hsocket : es.foldl Delivery.webSocket { db := db } = { db := db } :=
      foldl_refused fun e he ↦ webSocket_refused rfl (h e he)
    have hpolled : es.foldl Delivery.polling { db := db } = { db := db } :=
      foldl_refused fun e he ↦ polling_refused rfl (h e he)
    rw [SameRecord, hsocket, hpolled]
    exact ⟨rfl, List.forall_mem_nil _, List.forall_mem_nil _⟩

/-! ### An operator that registers and disconnects -/

/-- The token `t`. -/
def anyToken : Registry where
  tokens := [{ id := 1, tokenHash := hashToken "t" }]
  operators := []
  ids := List.nodup_singleton _
  hashes := List.nodup_singleton _

/-- The registration over the WebSocket is acknowledged, and no row is there; by polling there is. -/
theorem registered_record_differs : ¬ ∀ db es, SameRecord db es := by
  intro h
  have hrecord := (h anyToken [.register "t" { clusterName := "edge" } (fun _ ↦ "op-1") 0,
    .disconnect 1]).1
  have hlength := congrArg (fun r ↦ r.2.length) hrecord
  revert hlength
  decide +kernel

end BnkForge.Operators
