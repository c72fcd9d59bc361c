import BnkForge.Lib.Transition
import Mathlib.Logic.Function.Basic

/-!
# SSH tunnels to clusters

`SSHTunnelManager` (`backend/services/ssh_tunnel_manager.py:55–541`): `get_or_open_tunnel`,
`_open_tunnel`, `close_tunnel`, `_health_monitor_loop` and `_auto_reconnect`. What is done under the
lock is one step. The threads that copy bytes through a tunnel, and the hosts, ports and credentials
of a tunnel, are left out: whether a connection comes up is up to the event.
-/

namespace BnkForge.Tunnels

inductive Monitor
  | waiting
  | awake
  | probing
  /-- The tunnel has been idle for too long: `close_tunnel` is called next. -/
  | idle
  | reconnecting (attempt : Nat)
  /-- The old transport is closed. -/
  | dialing (attempt : Nat)
  /-- The new transport is up, and the tunnel does not have it yet. -/
  | dialed (attempt transport : Nat)
  | stopped
  deriving DecidableEq, Repr

def Monitor.transport : Monitor → Option Nat
  | .dialed _ transport => some transport
  | _ => none

/-- `TunnelInfo`, with its transports by their numbers. -/
structure TunnelInfo where
  clusterId : Int
  transport : Nat
  /-- The transport of the client. -/
  jumphostClient : Option Nat := none
  forwardServerOpen : Bool := true
  healthThread : Monitor := .waiting
  lastUsed : Int
  isHealthy : Bool := true
  reconnectAttempts : Nat := 0
  stopEvent : Bool := false

structure Transport where
  clusterId : Int
  active : Bool

/-- A call of `get_or_open_tunnel` that opens a tunnel. -/
inductive Call
  | connecting (clusterId : Int) (jumphost : Bool)
  | connected (clusterId : Int) (jumphost : Bool) (transport : Nat)
  | registering (clusterId : Int) (tunnel : Nat)

def Call.clusterId : Call → Int
  | .connecting clusterId _ | .connected clusterId _ _ | .registering clusterId _ => clusterId

def Call.transport : Call → Option Nat
  | .connected _ _ transport => some transport
  | _ => none

structure Manager where
  tunnels : Int → Option Nat
  infos : Nat → Option TunnelInfo
  transports : Nat → Option Transport
  calls : Nat → Option Call
  now : Int

def Manager.init : Manager := ⟨fun _ ↦ none, fun _ ↦ none, fun _ ↦ none, fun _ ↦ none, 0⟩

def tunnelMaxReconnectAttempts : Nat := 3

def tunnelIdleTtl : Int := 3600

namespace Manager

def setInfo (s : Manager) (t : Nat) (info : TunnelInfo) : Manager :=
  { s with infos := Function.update s.infos t (some info) }

def setCall (s : Manager) (n : Nat) (call : Option Call) : Manager :=
  { s with calls := Function.update s.calls n call }

def setTunnel (s : Manager) (clusterId : Int) (t : Option Nat) : Manager :=
  { s with tunnels := Function.update s.tunnels clusterId t }

def openTransport (s : Manager) (x : Nat) (clusterId : Int) : Manager :=
  { s with transports := Function.update s.transports x (some ⟨clusterId, true⟩) }

def closeTransport (s : Manager) (x : Nat) : Manager :=
  { s with
    transports := Function.update s.transports x
      ((s.transports x).map fun transport ↦ { transport with active := false }) }

/-- `transport.is_active()`. -/
def isActive (s : Manager) (x : Nat) : Bool := (s.transports x).any Transport.active

/-- A connection that fails may leave a transport behind that nobody closes. -/
def leave (s : Manager) (clusterId : Int) : Option Nat → Option Manager
  | none => some s
  | some x => if (s.transports x).isSome then none else some (s.openTransport x clusterId)

/-- What `_close_tunnel_internal` does with the tunnel that it has taken out. -/
def shut (s : Manager) (t : Nat) (info : TunnelInfo) : Manager :=
  let s := s.closeTransport info.transport
  let s := info.jumphostClient.elim s s.closeTransport
  s.setInfo t { info with stopEvent := true, forwardServerOpen := false }

/-- `_close_tunnel_internal`. -/
def closeTunnelInternal (s : Manager) (clusterId : Int) : Manager :=
  match s.tunnels clusterId with
  | none => s
  | some t =>
    match s.infos t with
    | none => s.setTunnel clusterId none
    | some info => (s.setTunnel clusterId none).shut t info

/-- The tunnel of the cluster, where `get_or_open_tunnel` uses it again. -/
def reusable (s : Manager) (clusterId : Int) : Option (Nat × TunnelInfo) :=
  (s.tunnels clusterId).bind fun t ↦ (s.infos t).bind fun info ↦
    if info.isHealthy && s.isActive info.transport then some (t, info) else none

end Manager

/-- The next attempt of `_auto_reconnect`, or back to the loop. -/
def nextAttempt (attempt : Nat) : Monitor :=
  if attempt < tunnelMaxReconnectAttempts then .reconnecting (attempt + 1) else .waiting

inductive TunnelEvent
  /-- `get_or_open_tunnel` up to where it releases the lock. -/
  | call (n : Nat) (clusterId : Int) (jumphost : Bool)
  | connect (n x : Nat)
  /-- The connection fails, and may leave a transport open. -/
  | failConnect (n : Nat) (leftover : Option Nat)
  | listen (n t : Nat)
  /-- There is no port to listen on. -/
  | failListen (n : Nat)
  | register (n : Nat)
  /-- `close_tunnel`. -/
  | close (clusterId : Int)
  | wake (t : Nat)
  | checkIdle (t : Nat)
  | closeIdle (t : Nat)
  | probe (t : Nat)
  | hangUp (t : Nat)
  | dial (t x : Nat)
  | failDial (t : Nat) (leftover : Option Nat)
  /-- There are no credentials to reconnect with. -/
  | giveUp (t : Nat)
  | assign (t : Nat)
  /-- The connection of a transport is lost. -/
  | lose (x : Nat)
  | clock (now : Int)

/-- The steps of `_open_tunnel` and of the monitors, each from where its thread has to be. -/
def tunnelStep (s : Manager) : TunnelEvent → Option Manager
  | .call n clusterId jumphost =>
    if (s.calls n).isSome then none
    else match s.reusable clusterId with
      | some (t, info) => some (s.setInfo t { info with lastUsed := s.now })
      | none =>
        some ((s.closeTunnelInternal clusterId).setCall n (some (.connecting clusterId jumphost)))
  | .connect n x =>
    match s.calls n with
    | some (.connecting clusterId jumphost) =>
      if (s.transports x).isSome then none
      else some ((s.openTransport x clusterId).setCall n (some (.connected clusterId jumphost x)))
    | _ => none
  | .failConnect n leftover =>
    match s.calls n with
    | some (.connecting clusterId jumphost) =>
      -- The client of a jumphost is closed where its connection fails.
      if jumphost && leftover.isSome then none
      else (s.leave clusterId leftover).map fun s ↦ s.setCall n none
    | _ => none
  | .listen n t =>
    match s.calls n with
    | some (.connected clusterId jumphost x) =>
      -- The transport is not authenticated any more.
      if s.isActive x = false then some (s.setCall n none)
      else if (s.infos t).isSome then none
      else
        let info : TunnelInfo :=
          { clusterId, transport := x, lastUsed := s.now
            jumphostClient := if jumphost then some x else none }
        some ((s.setInfo t info).setCall n (some (.registering clusterId t)))
    | _ => none
  | .failListen n =>
    match s.calls n with
    | some (.connected _ _ _) => some (s.setCall n none)
    | _ => none
  | .register n =>
    match s.calls n with
    | some (.registering clusterId t) => some ((s.setTunnel clusterId (some t)).setCall n none)
    | _ => none
  | .close clusterId => some (s.closeTunnelInternal clusterId)
  | .wake t =>
    (s.infos t).bind fun info ↦ match info.healthThread with
      | .waiting =>
        some (s.setInfo t { info with healthThread := if info.stopEvent then .stopped else .awake })
      | _ => none
  | .checkIdle t =>
    (s.infos t).bind fun info ↦ match info.healthThread with
      | .awake => some (s.setInfo t { info with
          healthThread := if tunnelIdleTtl < s.now - info.lastUsed then .idle else .probing })
      | _ => none
  | .closeIdle t =>
    (s.infos t).bind fun info ↦ match info.healthThread with
      | .idle =>
        some ((s.setInfo t { info with healthThread := .stopped }).closeTunnelInternal info.clusterId)
      | _ => none
  | .probe t =>
    (s.infos t).bind fun info ↦ match info.healthThread with
      | .probing =>
        if s.isActive info.transport then
          some (s.setInfo t
            { info with healthThread := .waiting, isHealthy := true, reconnectAttempts := 0 })
        else some (s.setInfo t { info with healthThread := .reconnecting 1, isHealthy := false })
      | _ => none
  | .hangUp t =>
    (s.infos t).bind fun info ↦ match info.healthThread with
      | .reconnecting attempt =>
        some ((s.closeTransport info.transport).setInfo t
          { info with healthThread := .dialing attempt })
      | _ => none
  | .dial t x =>
    (s.infos t).bind fun info ↦ match info.healthThread with
      | .dialing attempt =>
        if (s.transports x).isSome then none
        else some ((s.openTransport x info.clusterId).setInfo t
          { info with healthThread := .dialed attempt x })
      | _ => none
  | .failDial t leftover =>
    (s.infos t).bind fun info ↦ match info.healthThread with
      | .dialing attempt => (s.leave info.clusterId leftover).map fun s ↦
          s.setInfo t { info with healthThread := nextAttempt attempt }
      | _ => none
  | .giveUp t =>
    (s.infos t).bind fun info ↦ match info.healthThread with
      | .dialing _ => some (s.setInfo t { info with healthThread := .waiting })
      | _ => none
  | .assign t =>
    (s.infos t).bind fun info ↦ match info.healthThread with
      | .dialed attempt x =>
        if s.isActive x then
          some (s.setInfo t { info with
            transport := x
            isHealthy := true
            reconnectAttempts := attempt
            healthThread := .waiting })
        else some (s.setInfo t { info with healthThread := nextAttempt attempt })
      | _ => none
  | .lose x => some (s.closeTransport x)
  | .clock now => some { s with now := now }

/-! ### What is said of runs -/

def TunnelInfo.Has (info : TunnelInfo) (x : Nat) : Prop :=
  info.transport = x ∨ info.jumphostClient = some x ∨ info.healthThread.transport = some x

def Manager.IsOpen (s : Manager) (x : Nat) : Prop := s.isActive x = true

instance (s : Manager) (x : Nat) : Decidable (s.IsOpen x) :=
  inferInstanceAs (Decidable (_ = true))

def Accounted (s : Manager) : Prop :=
  ∀ t info, s.infos t = some info →
    (info.forwardServerOpen = true ∨ ∃ x, info.Has x ∧ s.IsOpen x) →
    (∀ n clusterId, s.calls n ≠ some (.registering clusterId t)) →
    s.tunnels info.clusterId = some t

def TunnelEvent.monitor : TunnelEvent → Option Nat
  | .wake t | .checkIdle t | .closeIdle t | .probe t | .hangUp t | .dial t _ | .failDial t _
  | .giveUp t | .assign t => some t
  | _ => none

def SparesOthers (s : Manager) (e : TunnelEvent) (s' : Manager) : Prop :=
  ∀ t ∈ e.monitor, ∀ other ≠ t, ∀ info, s.infos other = some info →
    s'.infos other = some info ∧
    (s.tunnels info.clusterId = some other → s'.tunnels info.clusterId = some other) ∧
    ∀ x, info.Has x → s.IsOpen x → s'.IsOpen x

def Manager.Opening (s : Manager) (clusterId : Int) : Prop :=
  ∃ n, ∃ call ∈ s.calls n, call.clusterId = clusterId

def Manager.NoneOpen (s : Manager) (clusterId : Int) : Prop :=
  ∀ x transport, s.transports x = some transport → transport.clusterId = clusterId →
    transport.active = false

def TunnelEvent.Opens (clusterId : Int) : TunnelEvent → Prop
  | .call _ c _ => c = clusterId
  | _ => False

/-! ### Where they hold -/

def Manager.Closable (s : Manager) (clusterId : Int) : Prop :=
  ∀ t ∈ s.tunnels clusterId, ∀ info ∈ s.infos t, ∀ x ∈ info.healthThread.transport, ¬ s.IsOpen x

def Undisturbed (s : Manager) : TunnelEvent → Prop
  | .call _ clusterId _ => s.reusable clusterId = none → s.Closable clusterId
  | .close clusterId => s.Closable clusterId
  | .failConnect _ leftover | .failDial _ leftover => leftover = none
  | .failListen n => ∀ call ∈ s.calls n, ∀ x ∈ call.transport, ¬ s.IsOpen x
  | .register n => ∀ call ∈ s.calls n, s.tunnels call.clusterId = none
  | .closeIdle t => ∀ info ∈ s.infos t, ∀ other ∈ s.tunnels info.clusterId, other = t
  | .dial t _ => ∀ info ∈ s.infos t, info.stopEvent = false
  | _ => True

end BnkForge.Tunnels
