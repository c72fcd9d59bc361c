import BnkForge.Lib.ExceptResult
import BnkForge.Lib.Transition
import BnkForge.Operators.Registry
import Mathlib.Logic.Function.Basic

/-!
# The connections of operators

`OperatorConnectionManager` (`backend/services/operator_registry.py:368–606`) with the handlers of its
WebSocket connections (`backend/routes/operator_ws.py:74–237`) and the commands sent over them. There
is one event loop: a step is what a handler or a command does between two awaits. The sessions of a
handler are closed without a commit, so the rows change by other sessions only.
-/

namespace BnkForge.Operators

open Python Transition

/-! ### The state -/

inductive Phase
  /-- `register_operator` has given the operator id. -/
  | accepted
  /-- `register` awaits the close of the connection that it replaces. -/
  | replacing
  /-- `registered` is being sent. -/
  | confirming
  | serving
  /-- The message loop is left, and `finally` is next. -/
  | leaving
  | unregistered
  | marked
  | ended
  deriving DecidableEq, Repr

structure Handler where
  operatorId : String
  phase : Phase := .accepted
  closed : Bool := false
  deriving DecidableEq

/-- The future of a command, with the operator whose message settled it. The list of output lines
attached to a result is that of a command, which may still grow. -/
inductive Future
  | pending
  | result (sender : String) (message : Value) (lines : Option Nat)
  | error (sender : String) (text : Value)
  | disconnected (reason : String)

def Future.done : Future → Bool
  | .pending => false
  | _ => true

/-- A line of output, with the operator whose message it came in. -/
structure Line where
  sender : String
  text : Value

/-- How `send_command` ended. -/
inductive Outcome
  | returned (sender : String) (message : Value) (lines : List Line)
  | raised (sender : String) (text : Value)
  | connectionError (reason : String)
  | timeoutError
  /-- Sending raised, or the caller was cancelled. -/
  | interrupted

/-- A call of `send_command`, with its output lines and the lines that `on_output` was given. -/
structure Call where
  operatorId : String
  commandId : String
  connection : Nat
  sent : Bool := false
  future : Future := .pending
  lines : List Line := []
  streamed : List Line := []
  outcome : Option Outcome := none

/-- Handlers and calls by number; the dicts of the manager; the connection of each operator that was
registered last, which the program does not keep; and the committed rows. A command id is taken to
the call whose future, output and callback are in the tables. -/
structure Hub where
  db : Registry
  handlers : Nat → Option Handler := fun _ ↦ none
  connections : String → Option Nat := fun _ ↦ none
  newest : String → Option Nat := fun _ ↦ none
  calls : Nat → Option Call := fun _ ↦ none
  pendingCommands : String → Option Nat := fun _ ↦ none
  commandOutput : String → Option Nat := fun _ ↦ none
  outputCallbacks : String → Option Nat := fun _ ↦ none

namespace Hub

def setHandler (s : Hub) (h : Nat) (handler : Handler) : Hub :=
  { s with handlers := Function.update s.handlers h (some handler) }

def setPhase (s : Hub) (h : Nat) (handler : Handler) (phase : Phase) : Hub :=
  s.setHandler h { handler with phase := phase }

def closeConnection (s : Hub) (h : Nat) : Hub :=
  { s with
    handlers := Function.update s.handlers h
      ((s.handlers h).map fun handler ↦ { handler with closed := true }) }

def updateCall (s : Hub) (n : Nat) (change : Call → Call) : Hub :=
  { s with calls := Function.update s.calls n ((s.calls n).map change) }

/-! ### The manager -/

/-- `is_connected`. -/
def isConnected (s : Hub) (operatorId : String) : Bool := (s.connections operatorId).isSome

/-- The second half of `register`. -/
def install (s : Hub) (h : Nat) (handler : Handler) : Hub :=
  { s.setPhase h handler .confirming with
    connections := Function.update s.connections handler.operatorId (some h)
    newest := Function.update s.newest handler.operatorId (some h) }

/-- `cmd_id.startswith(operator_id)`. -/
def startsWith (commandId operatorId : String) : Bool :=
  operatorId.toList.isPrefixOf commandId.toList

/-- `unregister`. -/
def unregister (s : Hub) (operatorId reason : String) : Hub :=
  { s with
    connections := Function.update s.connections operatorId none
    calls := fun n ↦ (s.calls n).map fun call ↦
      if startsWith call.commandId operatorId && s.pendingCommands call.commandId == some n &&
          !call.future.done then
        { call with future := .disconnected reason }
      else call
    pendingCommands := fun commandId ↦
      if startsWith commandId operatorId then none else s.pendingCommands commandId
    commandOutput := fun commandId ↦
      if startsWith commandId operatorId && (s.pendingCommands commandId).isSome then none
      else s.commandOutput commandId
    outputCallbacks := fun commandId ↦
      if startsWith commandId operatorId && (s.pendingCommands commandId).isSome then none
      else s.outputCallbacks commandId }

def commandId (operatorId hex : String) : String := operatorId ++ ":" ++ hex

/-- The first half of `send_command`, up to the message that it sends over the connection `c`. -/
def sendCommand (s : Hub) (n c : Nat) (operatorId hex : String) (streams : Bool) : Hub :=
  let id := commandId operatorId hex
  { s with
    calls := Function.update s.calls n
      (some { operatorId := operatorId, commandId := id, connection := c })
    pendingCommands := Function.update s.pendingCommands id (some n)
    commandOutput := Function.update s.commandOutput id (some n)
    outputCallbacks :=
      if streams then Function.update s.outputCallbacks id (some n) else s.outputCallbacks }

/-- The last half of `send_command`. -/
def endCommand (s : Hub) (n : Nat) (call : Call) (outcome : Outcome) : Hub :=
  { s.updateCall n fun call ↦ { call with outcome := some outcome } with
    pendingCommands := Function.update s.pendingCommands call.commandId none
    commandOutput := Function.update s.commandOutput call.commandId none
    outputCallbacks := Function.update s.outputCallbacks call.commandId none }

def linesOf (s : Hub) (lines : Option Nat) : List Line :=
  ((lines.bind s.calls).map Call.lines).getD []

/-- What `await asyncio.wait_for(future, ...)` gives once the future is done. -/
def awaited (s : Hub) : Future → Option Outcome
  | .pending => none
  | .result sender message lines => some (.returned sender message (s.linesOf lines))
  | .error sender text => some (.raised sender text)
  | .disconnected reason => some (.connectionError reason)

/-! ### Messages -/

def output (s : Hub) (sender commandId : String) (text : Value) : Hub :=
  match s.commandOutput commandId with
  | none => s
  | some n =>
    let s := s.updateCall n fun call ↦ { call with lines := call.lines ++ [⟨sender, text⟩] }
    match s.outputCallbacks commandId with
    | none => s
    | some m => s.updateCall m fun call ↦ { call with streamed := call.streamed ++ [⟨sender, text⟩] }

def settle (s : Hub) (commandId : String) (future : Future) : Hub :=
  match s.pendingCommands commandId with
  | none => s
  | some n => s.updateCall n fun call ↦
      if call.future.done then call else { call with future := future }

/-- `cmd_id and cmd_id in table`: the key that a value may be in a table of commands. -/
def tableKey (cmdId : Value) : Except Raised (Option String) :=
  match cmdId with
  | .str id => .ok (if id = "" then none else some id)
  | _ => if cmdId.truthy && !cmdId.hashable then .error .typeError else .ok none

/-- `message.get(key, default)`. -/
def getOr (message : Value) (key : String) (default : Value) : Value :=
  (message.items.lookup key).getD default

/-- `handle_message` for a message of the connection of an operator. -/
def handleMessage (s : Hub) (operatorId : String) (message : Value) : Except Raised Hub := do
  let some id ← tableKey (message.get "command_id") | return s
  if (message.get "type").isText "output" then
    return s.output operatorId id (getOr message "line" (.str ""))
  else if (message.get "type").isText "result" then
    return s.settle id (.result operatorId message (s.commandOutput id))
  else if (message.get "type").isText "error" then
    return s.settle id
      (.error operatorId (getOr message "error_message" (.str "Unknown operator error")))
  else return s

/-- The message loop: the messages of commands go to the manager, those of heartbeats and health to a
session that is not committed. -/
def receive (s : Hub) (operatorId : String) (message : Value) : Except Raised Hub := do
  let type ← message.get? "type"
  if type.isText "output" || type.isText "result" || type.isText "error" then
    s.handleMessage operatorId message
  else return s

end Hub

/-! ### The steps -/

/-- How a call of `send_command` goes on to its end. -/
inductive Ending
  | awaited
  | timeout
  | interrupted
  deriving DecidableEq, Repr

inductive HubEvent
  /-- `register_operator` is done by the handler of a new connection. -/
  | accept (h : Nat) (token : RegistrationToken) (body : Registration) (newId : String) (now : ℚ)
  /-- `register` is called; the connection that it finds is closed first. -/
  | register (h : Nat)
  | replace (h : Nat)
  | confirm (h : Nat)
  /-- The registration raises, and the handler closes the connection and returns. -/
  | fail (h : Nat)
  | message (h : Nat) (message : Value)
  /-- The connection of a handler is closed by its operator, or is lost. -/
  | disconnect (h : Nat)
  /-- The message loop is left. -/
  | leave (h : Nat)
  | unregister (h : Nat)
  | mark (h : Nat) (now : ℚ)
  /-- The handler returns, and its connection is closed with it. -/
  | finish (h : Nat)
  | send (n : Nat) (operatorId hex : String) (streams : Bool)
  | sent (n : Nat)
  | endCommand (n : Nat) (ending : Ending)
  /-- `unregister` of `remove_operator`. -/
  | remove (operatorId : String)
  /-- Another session commits. -/
  | commit (db : Registry)

def Hub.inPhase (s : Hub) (h : Nat) (phase : Phase) (next : Handler → Option Hub) : Option Hub :=
  (s.handlers h).bind fun handler ↦ if handler.phase = phase then next handler else none

/-- The registration of a handler is under way. -/
def Phase.registering (phase : Phase) : Bool :=
  phase == .accepted || phase == .replacing || phase == .confirming

def hubStep (s : Hub) : HubEvent → Option Hub
  | .accept h token body newId now =>
    if s.handlers h = none then
      let (db, operatorId) := commitRegistration s.db token .webSocket body newId now
      some ({ s with db := db }.setHandler h { operatorId := operatorId })
    else none
  | .register h => s.inPhase h .accepted fun handler ↦
      match s.connections handler.operatorId with
      | none => some (s.install h handler)
      | some old => some ((s.setPhase h handler .replacing).closeConnection old)
  | .replace h => s.inPhase h .replacing fun handler ↦ some (s.install h handler)
  | .confirm h => s.inPhase h .confirming fun handler ↦ some (s.setPhase h handler .serving)
  | .fail h => (s.handlers h).bind fun handler ↦
      if handler.phase.registering then
        some ((s.setPhase h handler .ended).closeConnection h)
      else none
  | .message h message => s.inPhase h .serving fun handler ↦
      match s.receive handler.operatorId message with
      | .ok t => some t
      | .error _ => some (s.setPhase h handler .leaving)
  | .disconnect h => some (s.closeConnection h)
  | .leave h => s.inPhase h .serving fun handler ↦ some (s.setPhase h handler .leaving)
  | .unregister h => s.inPhase h .leaving fun handler ↦
      some ((s.setPhase h handler .unregistered).unregister handler.operatorId "websocket_closed")
  | .mark h now => s.inPhase h .unregistered fun handler ↦
      let session := markOperatorDisconnected s.db handler.operatorId "websocket_closed" now
      some { s.setPhase h handler .marked with db := s.db.closeSession session }
  | .finish h => s.inPhase h .marked fun handler ↦
      some ((s.setPhase h handler .ended).closeConnection h)
  | .send n operatorId hex streams =>
    if s.calls n = none ∧ hex.length = 12 then
      (s.connections operatorId).map fun c ↦ s.sendCommand n c operatorId hex streams
    else none
  | .sent n => (s.calls n).bind fun call ↦
      if call.outcome.isNone then some (s.updateCall n fun call ↦ { call with sent := true })
      else none
  | .endCommand n ending => (s.calls n).bind fun call ↦
      if call.outcome.isNone then
        match ending with
        | .awaited => if call.sent then (s.awaited call.future).map (s.endCommand n call) else none
        | .timeout => if call.sent then some (s.endCommand n call .timeoutError) else none
        | .interrupted => some (s.endCommand n call .interrupted)
      else none
  | .remove operatorId => some (s.unregister operatorId "deleted_by_admin")
  | .commit db => some { s with db := db }

/-! ### Inversion -/

section

variable {s t : Hub}

theorem Hub.inPhase_eq_some {h : Nat} {phase : Phase} {next : Handler → Option Hub} :
    s.inPhase h phase next = some t ↔
      ∃ handler, s.handlers h = some handler ∧ handler.phase = phase ∧ next handler = some t := by
  rw [inPhase, Option.bind_eq_some_iff]
  refine exists_congr fun handler ↦ and_congr_right fun _ ↦ ?_
  split
  · next hphase => exact (and_iff_right hphase).symm
  · next hphase => exact ⟨nofun, fun hand ↦ absurd hand.1 hphase⟩

def commandOf (message : Value) : Option String :=
  match Hub.tableKey (message.get "command_id") with
  | .ok key => key
  | .error _ => none

def Concerns (message : Value) (type id : String) : Prop :=
  (message.get "type").isText type = true ∧ commandOf message = some id

theorem Hub.receive_eq_ok {sender : String} {message : Value}
    (hok : s.receive sender message = .ok t) :
    t = s ∨
    (∃ id text, Concerns message "output" id ∧ t = s.output sender id text) ∨
    (∃ id, Concerns message "result" id ∧
      t = s.settle id (.result sender message (s.commandOutput id))) ∨
    ∃ id text, Concerns message "error" id ∧ t = s.settle id (.error sender text) := by
  obtain ⟨type, -, hok⟩ := ExceptResult.bind_eq_ok.mp hok
  split at hok
  · obtain ⟨key, hkey, hok⟩ := ExceptResult.bind_eq_ok.mp hok
    cases key with
    | none =>
      cases hok
      exact Or.inl rfl
    | some id =>
      have hnamed : commandOf message = some id := by rw [commandOf, hkey]
      simp only at hok
      split at hok
      · next htype =>
        cases hok
        exact Or.inr (Or.inl ⟨id, _, ⟨htype, hnamed⟩, rfl⟩)
      · split at hok
        · next htype =>
          cases hok
          exact Or.inr (Or.inr (Or.inl ⟨id, ⟨htype, hnamed⟩, rfl⟩))
        · split at hok
          · next htype =>
            cases hok
            exact Or.inr (Or.inr (Or.inr ⟨id, _, ⟨htype, hnamed⟩, rfl⟩))
          · cases hok
            exact Or.inl rfl
  · cases hok
    exact Or.inl rfl

/-- A call of `send_command` ends by what it awaits, or without. -/
theorem endCommand_step {n : Nat} {ending : Ending} (hst : hubStep s (.endCommand n ending) = some t) :
    ∃ call outcome, s.calls n = some call ∧ t = s.endCommand n call outcome ∧
      (s.awaited call.future = some outcome ∨ outcome = .timeoutError ∨ outcome = .interrupted) := by
  obtain ⟨call, hcall, hst⟩ := Option.bind_eq_some_iff.mp hst
  split at hst
  · cases ending with
    | awaited =>
      simp only at hst
      split at hst
      · obtain ⟨outcome, houtcome, rfl⟩ := Option.map_eq_some_iff.mp hst
        exact ⟨call, outcome, hcall, rfl, Or.inl houtcome⟩
      · cases hst
    | timeout =>
      simp only at hst
      split at hst
      · cases hst
        exact ⟨call, _, hcall, rfl, Or.inr (Or.inl rfl)⟩
      · cases hst
    | interrupted =>
      cases hst
      exact ⟨call, _, hcall, rfl, Or.inr (Or.inr rfl)⟩
  · cases hst

theorem Hub.output_eq {sender id : String} {text : Value} :
    ∃ calls, s.output sender id text = { s with calls := calls } := by
  unfold output
  split
  · exact ⟨_, rfl⟩
  · dsimp only [updateCall]
    split
    · exact ⟨_, rfl⟩
    · exact ⟨_, rfl⟩

theorem Hub.settle_eq {id : String} {future : Future} :
    ∃ calls, s.settle id future = { s with calls := calls } := by
  unfold settle
  split
  · exact ⟨_, rfl⟩
  · exact ⟨_, rfl⟩

theorem Hub.receive_eq {sender : String} {message : Value}
    (hok : s.receive sender message = .ok t) : ∃ calls, t = { s with calls := calls } := by
  rcases receive_eq_ok hok with rfl | ⟨id, text, -, rfl⟩ | ⟨id, -, rfl⟩ | ⟨id, text, -, rfl⟩
  · exact ⟨_, rfl⟩
  · exact output_eq
  · exact settle_eq
  · exact settle_eq

end

/-! ### The table of one token -/

theorem oneToken_ids :
    (([{ id := 1, tokenHash := [] }] : List RegistrationToken).map RegistrationToken.id).Nodup :=
  List.nodup_singleton _

theorem oneToken_hashes :
    (([{ id := 1, tokenHash := [] }] : List RegistrationToken).map
      RegistrationToken.tokenHash).Nodup :=
  List.nodup_singleton _

end BnkForge.Operators
