import BnkForge.Proxy.As3
import BnkForge.Proxy.CisSources
import BnkForge.Proxy.Translate

/-!
# The translation of CIS

`translate_cis_to_bnk` (`backend/services/proxy_translate_cis_service.py:784–1087`): what all source
objects give is put into one route, in the order VirtualServers, AS3 declarations, Ingresses, Routes and
IngressLinks. What is counted of the source, and the YAML, are left out.
-/

namespace BnkForge.Proxy

open Python

/-- An AS3 declaration with what the caller says of its source. -/
structure As3Declaration where
  sourceKind : Option String := none
  sourceName : Option String := none
  sourceNamespace : Option String := none
  items : List (String × Value) := []

def As3Declaration.source (decl : As3Declaration) : Source :=
  ⟨(nonEmpty? decl.sourceKind).getD "AS3ConfigMap", (nonEmpty? decl.sourceName).getD "(unknown)",
    (nonEmpty? decl.sourceNamespace).getD "default"⟩

def As3Declaration.clean (decl : As3Declaration) : Value :=
  .dict (decl.items.filter fun i ↦ !startsWith i.1 "_")

/-- What is translated. -/
structure CisRequest where
  virtualservers : List VirtualServer := []
  transportservers : List TransportServer := []
  as3Declarations : List As3Declaration := []
  ingresses : List Ingress := []
  routes : List OpenShiftRoute := []
  ingresslinks : List IngressLink := []
  tlsprofiles : List TlsProfile := []
  gatewayClassName : String := "f5-bnk"
  gatewayName : Option String := none
  targetNamespace : Option String := none

/-! ### The name of the gateway -/

/-- `re.sub(r"-+", "-", text)`. -/
def squeezeDashes (cs : List Char) : List Char :=
  cs.foldr (fun c done ↦ if c = '-' ∧ done.head? = some '-' then done else c :: done) []

def slugOf (name : String) : String :=
  let cs := (lower name.toList).map fun c ↦
    if ('a' ≤ c && c ≤ 'z') || ('0' ≤ c && c ≤ '9') || c == '-' then c else '-'
  String.ofList ((((squeezeDashes cs).dropWhile (· == '-')).rdropWhile (· == '-')).take 30)

def firstSourceName (r : CisRequest) : Option String :=
  match r.virtualservers, r.transportservers, r.as3Declarations with
  | vs :: _, _, _ => some vs.name
  | [], ts :: _, _ => some ts.name
  | [], [], decl :: _ =>
    (nonEmpty? decl.sourceName).map fun name ↦ String.ofList ((name.toList.splitOn '/').getLastD [])
  | [], [], [] =>
    ((r.ingresses.head?.map (·.name)).or (r.routes.head?.map (·.name))).or
      (r.ingresslinks.head?.map (·.name))

def cisGatewayName (r : CisRequest) : String :=
  (nonEmpty? r.gatewayName).getD
    (slugOf ((nonEmpty? (firstSourceName r)).getD "cis-migrate") ++ "-bnk-migrate")

/-! ### What all source objects give -/

def Collected.add (acc : Collected) (part : FrontHalf × Option String) : Collected :=
  { rules := acc.rules ++ part.1.rules
    hostnames := part.1.hostnames.foldl addHostname acc.hostnames
    tlsListeners := acc.tlsListeners ++ part.1.tlsListeners
    gwNamespace := acc.gwNamespace.or (nonEmpty? part.2)
    unmapped := acc.unmapped ++ part.1.unmapped }

section

variable (repr : Value → String)

def as3Rule (b : As3Backend) : RouteRule :=
  { routeMatches := [.path .pathPrefix "/"]
    backendRefs := [{ name := b.service.toText repr, port := b.port }] }

def as3Part (decl : As3Declaration) : Except Raised (FrontHalf × Option String) := do
  let result ← as3DeclarationToBnk repr decl.source decl.clean
  return ({ rules := result.backends.map (as3Rule repr), hostnames := result.hostnames
            unmapped := result.unmapped }, none)

def ingressPart (r : CisRequest) : List (FrontHalf × Option String) :=
  if r.ingresses.isEmpty then []
  else
    let t := ingressToHttproute "cis-bigip" (cisGatewayName r) r.targetNamespace r.ingresses
    [({ rules := t.route.rules, hostnames := t.route.hostnames, tlsListeners := t.listeners
        unmapped := t.unmapped }, t.gwNamespace)]

/-- What the VirtualServers give. -/
def virtualserverParts (r : CisRequest) : List (FrontHalf × Option String) :=
  r.virtualservers.map fun vs ↦
    (virtualserverToHttproute repr r.tlsprofiles r.targetNamespace vs, some vs.ns)

/-- What each source object gives, in the order of the translation. -/
def cisParts (r : CisRequest) : Except Raised (List (FrontHalf × Option String)) := do
  let declarations ← r.as3Declarations.mapM (as3Part repr)
  let routes ← r.routes.mapM fun route ↦ do
    let part ← routeToBnk r.targetNamespace route
    return (part, some route.ns)
  let links := r.ingresslinks.map fun il ↦ (ingresslinkToBnk repr il, some il.ns)
  return virtualserverParts repr r ++ declarations ++ ingressPart r ++ routes ++ links

def noCisRulesEntry : UnmappedEntry :=
  ⟨"VirtualServer", "(none)", "(none)", "no_rules", "No VirtualServer rules found",
    "No matching CIS VirtualServer objects found. Replace the placeholder backendRef before applying."⟩

/-- The manifests and the entries. -/
structure CisResult where
  gateway : Gateway
  httproute : HttpRoute
  tcpUdpRoutes : List TcpUdpRoute
  unmapped : List UnmappedEntry

/-- `translate_cis_to_bnk`. -/
def translateCisToBnk (r : CisRequest) : Except Raised CisResult := do
  let parts ← cisParts repr r
  let acc := parts.foldl Collected.add { gwNamespace := r.targetNamespace }
  let gatewayName := cisGatewayName r
  let gwNamespace := orDefault acc.gwNamespace
  let layerFour ← r.transportservers.mapM (transportserverToRoute repr gatewayName gwNamespace)
  return {
    gateway := ⟨gatewayName, gwNamespace, r.gatewayClassName, buildListeners acc.tlsListeners⟩
    httproute := buildHttproute gatewayName acc.gwNamespace acc.hostnames
      (if acc.rules.isEmpty then [placeholderRule] else acc.rules)
    tcpUdpRoutes := layerFour.filterMap (·.1)
    unmapped := acc.unmapped ++ (if acc.rules.isEmpty then [noCisRulesEntry] else []) ++
      layerFour.flatMap (·.2) }

end

/-! ### What is collected, in one piece -/

theorem Collected.foldl_add (parts : List (FrontHalf × Option String)) (acc : Collected) :
    parts.foldl Collected.add acc =
      { rules := acc.rules ++ parts.flatMap (·.1.rules)
        hostnames := (parts.flatMap (·.1.hostnames)).foldl addHostname acc.hostnames
        tlsListeners := acc.tlsListeners ++ parts.flatMap (·.1.tlsListeners)
        gwNamespace := acc.gwNamespace.or (parts.findSome? fun part ↦ nonEmpty? part.2)
        unmapped := acc.unmapped ++ parts.flatMap (·.1.unmapped) } := by
  induction parts generalizing acc with
  | nil => simp
  | cons part parts ih =>
    rw [List.foldl_cons, ih]
    cases hns : nonEmpty? part.2 <;> simp [Collected.add, hns]

end BnkForge.Proxy
