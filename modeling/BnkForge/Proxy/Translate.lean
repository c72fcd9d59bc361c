import BnkForge.Proxy.Ingress

/-!
# The translation of a proxy

`translate_to_bnk` (`backend/services/proxy_translate_service.py:84–172`): Ingresses are translated,
HTTPRoutes are passed through (`:380–535`). What the manifests look like as YAML is left out.
-/

namespace BnkForge.Proxy

open Python

/-! ### HTTPRoutes -/

structure SourceRef where
  name : Option String := none
  port : Option Int := none
  ns : Option String := none
  group : Option String := none
  kind : Option String := none
  weight : Option Int := none
  deriving DecidableEq, Repr

structure SourceFilter where
  type : String := ""
  raw : Value

structure SourceRule where
  routeMatches : List Value := []
  backendRefs : List SourceRef := []
  filters : List SourceFilter := []

structure SourceRoute where
  name : String := "unknown"
  ns : String := "default"
  hostnames : List String := []
  rules : List SourceRule := []

structure SourceListener where
  name : Option String := none
  port : Option Int := none
  protocol : Option String := none
  hostname : Option String := none
  tls : Option Value := none

structure SourceGateway where
  listeners : List SourceListener := []

def SourceRoute.source (route : SourceRoute) : Source := ⟨"HTTPRoute", route.name, route.ns⟩

/-- How `None` and a text print. -/
def orNone (text : Option String) : String := text.getD "None"

def isExtension (br : SourceRef) : Bool := br.group.any fun g ↦ g != "" && g != "core"

def copyRef (br : SourceRef) : BackendRef :=
  { name := br.name.getD "", port := br.port.getD 80, ns := br.ns }

def extensionEntry (route : SourceRoute) (br : SourceRef) : UnmappedEntry :=
  route.source.unmapped "extensionRef"
    ("group=" ++ orNone br.group ++ " kind=" ++ orNone br.kind ++ " name=" ++ orNone br.name)
    ("Non-core backendRef group cannot be automatically mapped to BNK. " ++
      "Review whether the target resource type is supported.")

def standardFilters : List String :=
  ["RequestHeaderModifier", "ResponseHeaderModifier", "RequestRedirect", "URLRewrite", "RequestMirror"]

def filterEntry (route : SourceRoute) (f : SourceFilter) : UnmappedEntry :=
  route.source.unmapped "filter" ("type=" ++ f.type)
    "Non-standard filter type may not be supported by BNK. Review manually."

def allBackendsEntry (showRefs : List SourceRef → String) (route : SourceRoute) (rule : SourceRule) :
    UnmappedEntry :=
  route.source.unmapped "all_backends_unmapped" (showRefs rule.backendRefs)
    "All backends in this rule were unmapped. Placeholder inserted."

def SourceRule.kept (rule : SourceRule) : List SourceRef :=
  rule.backendRefs.filter fun br ↦ !isExtension br

def passRule (showRefs : List SourceRef → String) (route : SourceRoute) (rule : SourceRule) :
    RouteRule × List UnmappedEntry :=
  let kept := rule.kept.map copyRef
  let lost := kept.isEmpty && !rule.backendRefs.isEmpty
  ({ routeMatches := rule.routeMatches.map .copied
     backendRefs := if lost then placeholderRule.backendRefs else kept
     filters := (rule.filters.filter fun f ↦ standardFilters.contains f.type).map (·.raw) },
    (rule.backendRefs.filter isExtension).map (extensionEntry route) ++
      (if lost then [allBackendsEntry showRefs route rule] else []) ++
      (rule.filters.filter fun f ↦ !standardFilters.contains f.type).map (filterEntry route))

def passRoute (showRefs : List SourceRef → String) (acc : Collected) (route : SourceRoute) :
    Collected :=
  { acc with
    gwNamespace := some (acc.gwNamespace.getD route.ns)
    hostnames := route.hostnames.foldl addHostname acc.hostnames
    rules := acc.rules ++ route.rules.map fun rule ↦ (passRule showRefs route rule).1
    unmapped := acc.unmapped ++ route.rules.flatMap fun rule ↦ (passRule showRefs route rule).2 }

def passListeners (gateways : List SourceGateway) : List Listener :=
  (gateways.flatMap (·.listeners)).filterMap fun l ↦
    match l.tls with
    | none => none
    | some tls =>
      if l.protocol = some "HTTPS" && tls.truthy then
        some { name := l.name.getD "https", port := l.port.getD 443, protocol := "HTTPS"
               hostname := some (l.hostname.getD "*"), tls := some (.copied tls) }
      else none

def noRoutesEntry : UnmappedEntry :=
  ⟨"HTTPRoute", "(none)", "(none)", "no_routes", "No HTTPRoute objects found for this GatewayClass",
    "No matching HTTPRoute objects found. Replace the placeholder backendRef before applying."⟩

/-- `_httproute_passthrough`. -/
def httproutePassthrough (showRefs : List SourceRef → String) (gatewayName : String)
    (targetNamespace : Option String) (routes : List SourceRoute) (gateways : List SourceGateway) :
    Translated :=
  if routes.isEmpty then
    { route := buildHttproute gatewayName targetNamespace [] [placeholderRule]
      listeners := [defaultListener], gwNamespace := targetNamespace, unmapped := [noRoutesEntry] }
  else
    let acc := routes.foldl (passRoute showRefs) { gwNamespace := targetNamespace }
    { route := buildHttproute gatewayName acc.gwNamespace acc.hostnames
        (if acc.rules.isEmpty then [placeholderRule] else acc.rules)
      listeners := buildListeners (passListeners gateways)
      gwNamespace := acc.gwNamespace
      unmapped := acc.unmapped }

def routesNamespace (targetNamespace : Option String) (routes : List SourceRoute) : Option String :=
  targetNamespace.or (routes.head?.map (·.ns))

theorem foldl_passRoute (showRefs : List SourceRef → String) (routes : List SourceRoute)
    (acc : Collected) :
    routes.foldl (passRoute showRefs) acc =
      { acc with
        gwNamespace := routesNamespace acc.gwNamespace routes
        hostnames := (routes.flatMap (·.hostnames)).foldl addHostname acc.hostnames
        rules := acc.rules ++ routes.flatMap fun route ↦
          route.rules.map fun rule ↦ (passRule showRefs route rule).1
        unmapped := acc.unmapped ++ routes.flatMap fun route ↦
          route.rules.flatMap fun rule ↦ (passRule showRefs route rule).2 } := by
  induction routes generalizing acc with
  | nil => simp [routesNamespace]
  | cons route routes ih =>
    rw [List.foldl_cons, ih]
    cases h : acc.gwNamespace <;> simp [routesNamespace, passRoute, h]

/-! ### The result -/

structure Gateway where
  name : String
  ns : String
  gatewayClassName : String
  listeners : List Listener

/-- The manifests, the entries and what is said of the source. -/
structure TranslationResult where
  gatewayClassName : String
  gateway : Gateway
  httproute : HttpRoute
  unmapped : List UnmappedEntry
  proxyType : String
  sourceKind : String

/-- What is translated. -/
structure TranslateRequest where
  proxyType : String
  sourceKind : String
  sourceIngresses : List Ingress := []
  sourceHttproutes : List SourceRoute := []
  sourceGateways : List SourceGateway := []
  gatewayClassName : String := "f5-bnk"
  gatewayName : Option String := none
  targetNamespace : Option String := none

def gatewayNameOf (r : TranslateRequest) : String :=
  (nonEmpty? r.gatewayName).getD (String.ofList ((r.proxyType.toList.map fun c ↦
    if c = '/' ∨ c = '.' then '-' else c).take 30) ++ "-bnk-migrate")

def isIngressRequest (r : TranslateRequest) : Bool :=
  r.sourceKind == "IngressClass" || ["nginx", "haproxy"].contains r.proxyType

/-- The front half of `translate_to_bnk`. -/
def translateSources (showRefs : List SourceRef → String) (r : TranslateRequest) : Translated :=
  if isIngressRequest r then
    ingressToHttproute r.proxyType (gatewayNameOf r) r.targetNamespace r.sourceIngresses
  else
    httproutePassthrough showRefs (gatewayNameOf r) r.targetNamespace r.sourceHttproutes
      r.sourceGateways

/-- `translate_to_bnk`. -/
def translateToBnk (showRefs : List SourceRef → String) (r : TranslateRequest) : TranslationResult :=
  let t := translateSources showRefs r
  { gatewayClassName := r.gatewayClassName
    gateway := ⟨gatewayNameOf r, orDefault t.gwNamespace, r.gatewayClassName, t.listeners⟩
    httproute := t.route
    unmapped := t.unmapped
    proxyType := r.proxyType
    sourceKind := r.sourceKind }

end BnkForge.Proxy
