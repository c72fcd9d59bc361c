import BnkForge.Lib.PythonValue

/-!
# Gateway API manifests

What the proxy translation writes: the rules and hostnames of one HTTPRoute, the listeners of one
Gateway, and the entries for what it could not map
(`backend/services/proxy_translate_service.py:42–80`, `:538–635`).
-/

namespace BnkForge.Proxy

open Python List

structure UnmappedEntry where
  sourceKind : String
  sourceName : String
  sourceNamespace : String
  construct : String
  detail : String
  reason : String
  deriving DecidableEq, Repr

structure Source where
  kind : String
  name : String
  ns : String
  deriving DecidableEq, Repr

def Source.unmapped (s : Source) (construct detail reason : String) : UnmappedEntry :=
  ⟨s.kind, s.name, s.ns, construct, detail, reason⟩

def Source.portByName (s : Source) (portName : String) : UnmappedEntry :=
  s.unmapped "port_by_name" portName
    ("Service port is referenced by name. HTTPRoute requires a " ++
      "numeric port. Resolve the port number from the Service " ++
      "spec.ports and update the backendRef accordingly.")

inductive MatchType
  | pathPrefix
  | exact
  deriving DecidableEq, Repr

inductive RouteMatch
  | path (type : MatchType) (value : String)
  | copied (raw : Value)

structure BackendRef where
  name : String
  port : Int
  ns : Option String := none
  weight : Option Int := none
  deriving DecidableEq, Repr

structure RouteRule where
  routeMatches : List RouteMatch := []
  backendRefs : List BackendRef := []
  filters : List Value := []

structure CertificateRef where
  name : String
  ns : String
  deriving DecidableEq, Repr

inductive ListenerTls
  | terminate (certificateRefs : List CertificateRef)
  | copied (raw : Value)

structure Listener where
  name : String
  port : Int
  protocol : String
  hostname : Option String := none
  tls : Option ListenerTls := none

structure HttpRoute where
  name : String
  ns : String
  gatewayName : String
  gatewayNamespace : String
  hostnames : List String
  rules : List RouteRule

/-- `REPLACE_WITH_SERVICE_NAME`. -/
def placeholderName : String := "REPLACE_WITH_SERVICE_NAME"

def placeholderRule : RouteRule :=
  { routeMatches := [.path .pathPrefix "/"], backendRefs := [{ name := placeholderName, port := 80 }] }

/-- `_default_listener`. -/
def defaultListener : Listener := { name := "http", port := 80, protocol := "HTTP" }

def Listener.hasKey (name : String) (port : Int) (l : Listener) : Bool :=
  l.name == name && l.port == port

def addListener (kept : List Listener) (l : Listener) : List Listener :=
  if kept.any (Listener.hasKey l.name l.port) then kept else kept ++ [l]

/-- `_build_listeners`: the first listener of each name and port, after the one for HTTP. -/
def buildListeners (tlsListeners : List Listener) : List Listener :=
  defaultListener :: tlsListeners.foldl addListener []

/-- `host`, unless it is empty or already listed. -/
def addHostname (hostnames : List String) (host : String) : List String :=
  if host = "" ∨ host ∈ hostnames then hostnames else hostnames ++ [host]

def nonEmpty? (text : Option String) : Option String := text.filter (· ≠ "")

def nonZero? (number : Option Int) : Option Int := number.filter (· ≠ 0)

def takeText (count : Nat) (text : String) : String := String.ofList (text.toList.take count)

/-! ### Listeners of one name and port -/

theorem Listener.hasKey_iff {name : String} {port : Int} {l : Listener} :
    l.hasKey name port = true ↔ l.name = name ∧ l.port = port := by
  simp [Listener.hasKey]

theorem find?_addListener (name : String) (port : Int) (ls acc : List Listener) :
    (ls.foldl addListener acc).find? (Listener.hasKey name port) =
      (acc.find? (Listener.hasKey name port)).or (ls.find? (Listener.hasKey name port)) := by
  induction ls generalizing acc with
  | nil => simp
  | cons l ls ih =>
    rw [foldl_cons, ih, addListener, find?_cons]
    split
    · next hany =>
      obtain ⟨k, hk, hkey⟩ := any_eq_true.mp hany
      split
      · next hl =>
        -- A listener of this name and port is there already.
        obtain ⟨rfl, rfl⟩ := Listener.hasKey_iff.mp hl
        have hsome : (acc.find? (Listener.hasKey l.name l.port)).isSome = true :=
          find?_isSome.mpr ⟨k, hk, hkey⟩
        rw [Option.or_of_isSome hsome, Option.or_of_isSome hsome]
      · rfl
    · rw [find?_append, Option.or_assoc, find?_singleton]
      split <;> simp_all

theorem pairwise_addListener (ls acc : List Listener)
    (h : acc.Pairwise fun k l ↦ l.hasKey k.name k.port = false) :
    (ls.foldl addListener acc).Pairwise fun k l ↦ l.hasKey k.name k.port = false := by
  induction ls generalizing acc with
  | nil => exact h
  | cons l ls ih =>
    rw [foldl_cons]
    refine ih _ ?_
    unfold addListener
    split
    · exact h
    · next hany =>
      rw [pairwise_append]
      refine ⟨h, pairwise_singleton _ _, fun k hk l' hl' ↦ ?_⟩
      rw [mem_singleton.mp hl']
      have hk' : ¬ (k.hasKey l.name l.port = true) := fun hkey ↦
        hany (any_eq_true.mpr ⟨k, hk, hkey⟩)
      rw [Listener.hasKey_iff] at hk'
      rw [Bool.eq_false_iff, ne_eq, Listener.hasKey_iff]
      exact fun hl ↦ hk' ⟨hl.1.symm, hl.2.symm⟩

theorem mem_addListener {ls : List Listener} {l : Listener} :
    l ∈ ls.foldl addListener [] ↔ ls.find? (Listener.hasKey l.name l.port) = some l := by
  have hfind := find?_addListener l.name l.port ls []
  rw [find?_nil, Option.none_or] at hfind
  rw [← hfind]
  constructor
  · intro hl
    have hpair := pairwise_addListener ls [] .nil
    obtain ⟨pre, post, hsplit⟩ := append_of_mem hl
    rw [hsplit, pairwise_append] at hpair
    rw [hsplit, find?_append, find?_cons_of_pos (by simp [Listener.hasKey])]
    have hpre : pre.find? (Listener.hasKey l.name l.port) = none := by
      rw [find?_eq_none]
      intro k hk hkey
      have := hpair.2.2 k hk l mem_cons_self
      rw [Bool.eq_false_iff, ne_eq, Listener.hasKey_iff] at this
      obtain ⟨hname, hport⟩ := Listener.hasKey_iff.mp hkey
      exact this ⟨hname.symm, hport.symm⟩
    rw [hpre, Option.none_or]
  · exact mem_of_find?_eq_some

end BnkForge.Proxy
