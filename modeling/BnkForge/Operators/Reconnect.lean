import BnkForge.Operators.Connections

/-!
# An operator connects again

The old handler cleans up by operator id, whatever connection the operator has by then. Where it does
not while the newest connection is open, that connection is the one that commands are sent over.
-/

namespace BnkForge.Operators

open Python Transition

def Hub.IsOpen (s : Hub) (h : Nat) : Prop := ∃ handler ∈ s.handlers h, handler.closed = false

instance (s : Hub) (h : Nat) : Decidable (s.IsOpen h) :=
  inferInstanceAs (Decidable (∃ handler ∈ s.handlers h, handler.closed = false))

def NewestServes (s : Hub) : Prop :=
  ∀ operatorId h, s.newest operatorId = some h → s.IsOpen h →
    s.isConnected operatorId = true ∧ s.connections operatorId = some h

/-- What an operator whose newest connection is open can rely on in a step: its commands go over that
connection, and an older handler neither fails them nor marks the operator disconnected. -/
def NewestUnharmed (s : Hub) (e : HubEvent) (t : Hub) : Prop :=
  match e with
  | .send n operatorId _ _ => ∀ h, s.newest operatorId = some h → s.IsOpen h →
    ∃ call ∈ t.calls n, call.connection = h
  | .unregister old => ∀ handler ∈ s.handlers old, ∀ h ∈ s.newest handler.operatorId,
    h ≠ old → s.IsOpen h →
      ∀ n call, s.calls n = some call → call.connection = h → t.calls n = some call
  | .mark old _ => ∀ handler ∈ s.handlers old, ∀ h ∈ s.newest handler.operatorId,
    h ≠ old → s.IsOpen h →
      ∀ row ∈ t.db.operators, row.operatorId = handler.operatorId → row ∈ s.db.operators
  | _ => True

def ReconnectSafe (s : Hub) (e : HubEvent) (t : Hub) : Prop :=
  NewestServes t ∧ NewestUnharmed s e t

def CleansUpInTime (s : Hub) : HubEvent → Prop
  | .unregister h => ∀ handler ∈ s.handlers h, ∀ newest ∈ s.newest handler.operatorId,
    ¬ s.IsOpen newest
  | .remove operatorId => ∀ newest ∈ s.newest operatorId, ¬ s.IsOpen newest
  | _ => True

/-! ### What a step does to the connections -/

/-- A step that leaves the table of connections alone, and opens none but that of a new handler. -/
structure Quiet (s t : Hub) : Prop where
  connections : t.connections = s.connections
  newest : t.newest = s.newest
  handlers : ∀ h, (s.handlers h).isSome = true → (t.handlers h).isSome = true ∧
    (t.IsOpen h → s.IsOpen h)

section

variable {s t : Hub} {h : Nat} {handler : Handler}

theorem Quiet.of_handlers (hconnections : t.connections = s.connections)
    (hnewest : t.newest = s.newest) (hhandlers : t.handlers = s.handlers) : Quiet s t where
  connections := hconnections
  newest := hnewest
  handlers h hsome := by
    rw [Hub.IsOpen, hhandlers]
    exact ⟨hsome, id⟩

theorem Quiet.trans {u : Hub} (h₁ : Quiet s t) (h₂ : Quiet t u) : Quiet s u where
  connections := h₂.connections.trans h₁.connections
  newest := h₂.newest.trans h₁.newest
  handlers h hsome :=
    have ht := h₁.handlers h hsome
    have hu := h₂.handlers h ht.1
    ⟨hu.1, fun hopen ↦ ht.2 (hu.2 hopen)⟩

theorem quiet_setHandler (handler' : Handler)
    (hclosed : ∀ handler, s.handlers h = some handler → handler'.closed = false →
      handler.closed = false) : Quiet s (s.setHandler h handler') where
  connections := rfl
  newest := rfl
  handlers h' hsome := by
    rcases eq_or_ne h' h with rfl | hne
    · obtain ⟨handler, hhandler⟩ := Option.isSome_iff_exists.mp hsome
      simp only [Hub.IsOpen, Hub.setHandler, Function.update_self, Option.mem_some_iff,
        exists_eq_left', Option.isSome_some, true_and]
      exact fun hopen ↦ ⟨handler, hhandler, hclosed handler hhandler hopen⟩
    · simp only [Hub.IsOpen, Hub.setHandler, Function.update_of_ne hne]
      exact ⟨hsome, id⟩

theorem quiet_setPhase (hhandler : s.handlers h = some handler) (phase : Phase) :
    Quiet s (s.setPhase h handler phase) :=
  quiet_setHandler _ fun found hfound hopen ↦ by
    cases hhandler.symm.trans hfound
    exact hopen

theorem quiet_closeConnection : Quiet s (s.closeConnection h) where
  connections := rfl
  newest := rfl
  handlers h' hsome := by
    rcases eq_or_ne h' h with rfl | hne
    · simp only [Hub.IsOpen, Hub.closeConnection, Function.update_self, Option.isSome_map, hsome,
        Option.mem_def, Option.map_eq_some_iff, true_and]
      rintro ⟨_, ⟨handler, -, rfl⟩, hopen⟩
      cases hopen
    · simp only [Hub.IsOpen, Hub.closeConnection, Function.update_of_ne hne]
      exact ⟨hsome, id⟩

/-- What a step does to the connections of operators. -/
inductive ConnectionEffect (s : Hub) : HubEvent → Hub → Prop
  | quiet {e : HubEvent} {t : Hub} (hquiet : Quiet s t) : ConnectionEffect s e t
  | install {e : HubEvent} {h : Nat} {handler : Handler} (hhandler : s.handlers h = some handler) :
    ConnectionEffect s e (s.install h handler)
  | unregister {h : Nat} {handler : Handler} (hhandler : s.handlers h = some handler) :
    ConnectionEffect s (.unregister h)
      ((s.setPhase h handler .unregistered).unregister handler.operatorId "websocket_closed")
  | remove {operatorId : String} :
    ConnectionEffect s (.remove operatorId) (s.unregister operatorId "deleted_by_admin")

theorem ConnectionEffect.of_calls {e : HubEvent} (hconnections : t.connections = s.connections)
    (hnewest : t.newest = s.newest) (hhandlers : t.handlers = s.handlers) :
    ConnectionEffect s e t :=
  .quiet (.of_handlers hconnections hnewest hhandlers)

theorem connectionEffect {e : HubEvent} (hst : hubStep s e = some t) : ConnectionEffect s e t := by
  cases e with
  | accept h token body newId now =>
    simp only [hubStep] at hst
    split at hst
    · next hnew =>
      cases hst
      refine .quiet (quiet_setHandler (s := { s with db := _ }) _ fun found hfound ↦ ?_)
      cases hnew.symm.trans hfound
    · cases hst
  | register h =>
    obtain ⟨handler, hhandler, -, hst⟩ := Hub.inPhase_eq_some.mp hst
    split at hst
    · cases hst
      exact .install hhandler
    · cases hst
      exact .quiet ((quiet_setPhase hhandler _).trans quiet_closeConnection)
  | replace h =>
    obtain ⟨handler, hhandler, -, hst⟩ := Hub.inPhase_eq_some.mp hst
    cases hst
    exact .install hhandler
  | confirm h =>
    obtain ⟨handler, hhandler, -, hst⟩ := Hub.inPhase_eq_some.mp hst
    cases hst
    exact .quiet (quiet_setPhase hhandler _)
  | fail h =>
    obtain ⟨handler, hhandler, hst⟩ := Option.bind_eq_some_iff.mp hst
    split at hst
    · cases hst
      exact .quiet ((quiet_setPhase hhandler _).trans quiet_closeConnection)
    · cases hst
  | message h message =>
    obtain ⟨handler, hhandler, -, hst⟩ := Hub.inPhase_eq_some.mp hst
    split at hst
    · next u hok =>
      cases hst
      obtain ⟨calls, rfl⟩ := Hub.receive_eq hok
      exact .of_calls rfl rfl rfl
    · cases hst
      exact .quiet (quiet_setPhase hhandler _)
  | disconnect h =>
    cases hst
    exact .quiet quiet_closeConnection
  | leave h =>
    obtain ⟨handler, hhandler, -, hst⟩ := Hub.inPhase_eq_some.mp hst
    cases hst
    exact .quiet (quiet_setPhase hhandler _)
  | unregister h =>
    obtain ⟨handler, hhandler, -, hst⟩ := Hub.inPhase_eq_some.mp hst
    cases hst
    exact .unregister hhandler
  | mark h now =>
    obtain ⟨handler, hhandler, -, hst⟩ := Hub.inPhase_eq_some.mp hst
    cases hst
    exact .quiet ((quiet_setPhase hhandler _).trans (.of_handlers rfl rfl rfl))
  | finish h =>
    obtain ⟨handler, hhandler, -, hst⟩ := Hub.inPhase_eq_some.mp hst
    cases hst
    exact .quiet ((quiet_setPhase hhandler _).trans quiet_closeConnection)
  | send n operatorId hex streams =>
    simp only [hubStep] at hst
    split at hst
    · obtain ⟨c, -, rfl⟩ := Option.map_eq_some_iff.mp hst
      exact .of_calls rfl rfl rfl
    · cases hst
  | sent n =>
    obtain ⟨call, -, hst⟩ := Option.bind_eq_some_iff.mp hst
    split at hst
    · cases hst
      exact .of_calls rfl rfl rfl
    · cases hst
  | endCommand n ending =>
    obtain ⟨call, outcome, -, rfl, -⟩ := endCommand_step hst
    exact .of_calls rfl rfl rfl
  | remove operatorId =>
    cases hst
    exact .remove
  | commit db =>
    cases hst
    exact .of_calls rfl rfl rfl

/-! ### What the runs keep -/

/-- The newest connections have handlers, and serve their operators where they are open. -/
structure ReconnectInv (s : Hub) : Prop where
  known : ∀ operatorId h, s.newest operatorId = some h → (s.handlers h).isSome = true
  serves : NewestServes s

theorem newestServes_iff : NewestServes s ↔
    ∀ operatorId h, s.newest operatorId = some h → s.IsOpen h → s.connections operatorId = some h := by
  refine forall₄_congr fun operatorId h _ _ ↦ and_iff_right_of_imp fun hconnection ↦ ?_
  rw [Hub.isConnected, hconnection, Option.isSome_some]

theorem ReconnectInv.quiet (hinv : ReconnectInv s) (hquiet : Quiet s t) : ReconnectInv t where
  known operatorId h hnewest :=
    (hquiet.handlers h (hinv.known operatorId h (hquiet.newest ▸ hnewest))).1
  serves := newestServes_iff.mpr fun operatorId h hnewest hopen ↦ by
    rw [hquiet.newest] at hnewest
    rw [hquiet.connections]
    exact newestServes_iff.mp hinv.serves operatorId h hnewest
      ((hquiet.handlers h (hinv.known operatorId h hnewest)).2 hopen)

theorem ReconnectInv.install (hinv : ReconnectInv s) (hhandler : s.handlers h = some handler) :
    ReconnectInv (s.install h handler) := by
  have hquiet := hinv.quiet (quiet_setPhase hhandler .confirming)
  constructor
  · intro operatorId h' hnewest
    rcases eq_or_ne operatorId handler.operatorId with rfl | hne
    · simp only [Hub.install, Function.update_self, Option.some.injEq] at hnewest
      rw [← hnewest]
      simp only [Hub.install, Hub.setPhase, Hub.setHandler, Function.update_self, Option.isSome_some]
    · simp only [Hub.install, Function.update_of_ne hne] at hnewest
      exact hquiet.known operatorId h' hnewest
  · refine newestServes_iff.mpr fun operatorId h' hnewest hopen ↦ ?_
    rcases eq_or_ne operatorId handler.operatorId with rfl | hne
    · simp only [Hub.install, Function.update_self] at hnewest ⊢
      exact hnewest
    · simp only [Hub.install, Function.update_of_ne hne] at hnewest ⊢
      exact newestServes_iff.mp hquiet.serves operatorId h' hnewest hopen

theorem ReconnectInv.unregister (hinv : ReconnectInv s) {operatorId reason : String}
    (hclosed : ∀ newest ∈ s.newest operatorId, ¬ s.IsOpen newest) :
    ReconnectInv (s.unregister operatorId reason) where
  known := hinv.known
  serves := newestServes_iff.mpr fun operatorId' h hnewest hopen ↦ by
    rcases eq_or_ne operatorId' operatorId with rfl | hne
    · exact absurd hopen (hclosed h hnewest)
    · simp only [Hub.unregister, Function.update_of_ne hne]
      exact newestServes_iff.mp hinv.serves operatorId' h hnewest hopen

theorem not_isOpen_of_unregister {operatorId reason : String}
    (hserves : NewestServes (s.unregister operatorId reason)) :
    ∀ newest ∈ s.newest operatorId, ¬ s.IsOpen newest := by
  intro newest hnewest hopen
  have hconnected := (hserves operatorId newest hnewest hopen).1
  simp only [Hub.isConnected, Hub.unregister, Function.update_self, Option.isSome_none,
    Bool.false_eq_true] at hconnected

theorem isOpen_setPhase (hhandler : s.handlers h = some handler) {phase : Phase} {h' : Nat} :
    (s.setPhase h handler phase).IsOpen h' ↔ s.IsOpen h' := by
  rcases eq_or_ne h' h with rfl | hne
  · simp only [Hub.IsOpen, Hub.setPhase, Hub.setHandler, Function.update_self, hhandler,
      Option.mem_some_iff, exists_eq_left']
  · simp only [Hub.IsOpen, Hub.setPhase, Hub.setHandler, Function.update_of_ne hne]

theorem ReconnectInv.step (hinv : ReconnectInv s) {e : HubEvent} (hok : CleansUpInTime s e)
    (hst : hubStep s e = some t) : ReconnectInv t := by
  cases connectionEffect hst with
  | quiet hquiet => exact hinv.quiet hquiet
  | install hhandler => exact hinv.install hhandler
  | unregister hhandler =>
    refine (hinv.quiet (quiet_setPhase hhandler _)).unregister fun newest hnewest hopen ↦ ?_
    exact hok _ hhandler newest hnewest ((isOpen_setPhase hhandler).mp hopen)
  | remove => exact hinv.unregister hok

theorem ReconnectInv.unharmed (hinv : ReconnectInv s) {e : HubEvent} (hok : CleansUpInTime s e)
    (hst : hubStep s e = some t) : NewestUnharmed s e t := by
  cases e with
  | send n operatorId hex streams =>
    intro h hnewest hopen
    simp only [hubStep] at hst
    split at hst
    · obtain ⟨c, hc, rfl⟩ := Option.map_eq_some_iff.mp hst
      cases (hinv.serves operatorId h hnewest hopen).2.symm.trans hc
      refine ⟨{ operatorId, commandId := Hub.commandId operatorId hex, connection := h }, ?_, rfl⟩
      simp only [Hub.sendCommand, Function.update_self, Option.mem_some_iff]
    · cases hst
  | unregister old =>
    intro handler hhandler h hnewest _ hopen
    exact absurd hopen (hok handler hhandler h hnewest)
  | mark old now =>
    obtain ⟨handler, -, -, hst⟩ := Hub.inPhase_eq_some.mp hst
    cases hst
    exact fun _ _ _ _ _ _ row hrow _ ↦ hrow
  | _ => trivial

end

/-- The reconnects of operators are safe if and only if an operator is unregistered only while its
newest connection is not open. -/
theorem reconnect_safe_iff (db : Registry) (es : List HubEvent) {s : Hub}
    (h : Run hubStep Free { db := db } es s) :
    AllSteps hubStep ReconnectSafe { db := db } es ↔ Run hubStep CleansUpInTime { db := db } es s := by
  refine h.allSteps_iff_guarded (I := ReconnectInv) ⟨nofun, nofun⟩ (fun _ _ _ hinv hok hst ↦ ?_)
    fun a e b hinv hst hsafe ↦ ?_
  · have hb := hinv.step hok hst
    exact ⟨hb, hb.serves, hinv.unharmed hok hst⟩
  · cases e with
    | unregister h =>
      obtain ⟨handler, hhandler, -, hst⟩ := Hub.inPhase_eq_some.mp hst
      cases hst
      intro found hfound newest hnewest hopen
      cases hhandler.symm.trans hfound
      exact not_isOpen_of_unregister hsafe.1 newest hnewest ((isOpen_setPhase hhandler).mpr hopen)
    | remove operatorId =>
      cases hst
      exact not_isOpen_of_unregister hsafe.1
    | _ => trivial

/-! ### The operator of the edge cluster -/

/-- The cluster `edge` has the operator `op-1`, which has registered by polling before. -/
def edge : Registry where
  tokens := [{ id := 1, tokenHash := [] }]
  operators := [{ operatorId := "op-1", registrationTokenId := some 1, clusterName := "edge" }]
  ids := oneToken_ids
  hashes := oneToken_hashes

/-- The operator connects, up to the message loop of its handler. -/
def connects (h : Nat) : List HubEvent :=
  [.accept h { id := 1, tokenHash := [] } { clusterName := "edge" } "new" 0, .register h]

def cleansUp (h : Nat) : List HubEvent := [.leave h, .unregister h, .mark h 1, .finish h]

instance (s : Hub) (e : HubEvent) : Decidable (CleansUpInTime s e) :=
  match e with
  | .unregister h => inferInstanceAs (Decidable (∀ handler ∈ s.handlers h,
      ∀ newest ∈ s.newest handler.operatorId, ¬ s.IsOpen newest))
  | .remove operatorId =>
    inferInstanceAs (Decidable (∀ newest ∈ s.newest operatorId, ¬ s.IsOpen newest))
  | .accept .. | .register _ | .replace _ | .confirm _ | .fail _ | .message .. | .disconnect _
  | .leave _ | .mark .. | .finish _ | .send .. | .sent _ | .endCommand .. | .commit _ => isTrue trivial

def reconnected : List HubEvent :=
  connects 0 ++ [.confirm 0, .send 0 "op-1" "0123456789ab" false, .sent 0, .disconnect 0] ++
    cleansUp 0 ++ [.endCommand 0 .awaited] ++ connects 1 ++
    [.confirm 1, .send 1 "op-1" "ba9876543210" false]

theorem reconnected_safe :
    ∃ s, Run hubStep Free { db := edge } reconnected s ∧ s.connections "op-1" = some 1 ∧
      AllSteps hubStep ReconnectSafe { db := edge } reconnected := by
  obtain ⟨s, hrun, hconnection⟩ : ∃ s, Run hubStep CleansUpInTime { db := edge } reconnected s ∧
      s.connections "op-1" = some 1 := Run.exists_of_exec (by decide +kernel)
  exact ⟨s, hrun.free, hconnection, (reconnect_safe_iff edge _ hrun.free).mpr hrun⟩

/-- The operator connects while its old connection is up, is sent a command, and the old handler leaves
its loop. -/
def replaced : List HubEvent :=
  connects 0 ++ [.confirm 0] ++ connects 1 ++
    [.replace 1, .confirm 1, .send 0 "op-1" "0123456789ab" false, .sent 0, .leave 0]

/-- The old handler fails the command and leaves the operator with an open connection that it is not
connected by. -/
theorem replaced_not_connected :
    (∃ s, Run hubStep Free { db := edge } (replaced ++ [.unregister 0]) s ∧
      s.newest "op-1" = some 1 ∧ s.IsOpen 1 ∧ s.isConnected "op-1" = false ∧
      ∃ call ∈ s.calls 0, call.connection = 1 ∧ call.future.done = true) ∧
    ¬ ∀ db es s, Run hubStep Free { db := db } es s →
      AllSteps hubStep ReconnectSafe { db := db } es := by
  obtain ⟨s, hrun, hnewest, hopen, hconnected, hfailed⟩ : ∃ s, Run hubStep Free { db := edge }
      (replaced ++ [.unregister 0]) s ∧ s.newest "op-1" = some 1 ∧ s.IsOpen 1 ∧
      s.isConnected "op-1" = false ∧
      ∃ call ∈ s.calls 0, call.connection = 1 ∧ call.future.done = true :=
    Run.exists_of_exec (by decide +kernel)
  refine ⟨⟨s, hrun, hnewest, hopen, hconnected, hfailed⟩, fun h ↦ ?_⟩
  obtain ⟨t, -, hserves, -⟩ := hrun.related_last (h edge _ _ hrun)
  rw [(hserves "op-1" 1 hnewest hopen).1] at hconnected
  cases hconnected

end BnkForge.Operators
