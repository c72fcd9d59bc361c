import BnkForge.Proxy.VirtualServer

/-!
# Routes, IngressLinks and TransportServers

The other front halves of the CIS translation: `_route_to_bnk` and `_ingresslink_to_bnk`
(`backend/services/proxy_translate_cis_service.py:431–781`), and `_transportserver_to_route`
(`:1504–1694`), which makes a route of its own.
-/

namespace BnkForge.Proxy

open Python

/-! ### OpenShift Routes -/

structure RouteTls where
  termination : Option String := none
  certificate : Option String := none
  key : Option String := none
  deriving DecidableEq, Repr

structure AlternateBackend where
  name : Option String := none
  weight : Option Int := none
  deriving DecidableEq, Repr

structure OpenShiftRoute where
  name : String := "unknown"
  ns : String := "default"
  host : Option String := none
  wildcardPolicy : Option String := none
  path : Option String := none
  toName : Option String := none
  toWeight : Option Int := none
  targetPort : Option IntOrString := none
  tls : RouteTls := {}
  alternateBackends : List AlternateBackend := []
  deriving DecidableEq, Repr

def OpenShiftRoute.source (route : OpenShiftRoute) : Source := ⟨"Route", route.name, route.ns⟩

/-- A port that is given as a text: its number, or `80` where it is given by name. -/
def textPort (s : Source) (reason text : String) : Except Raised (Int × List UnmappedEntry) :=
  if isDigitText text then (Value.str text).number.map fun n ↦ (n, [])
  else .ok (80, [s.unmapped "port_by_name" text reason])

def routePort (route : OpenShiftRoute) : Except Raised (Int × List UnmappedEntry) :=
  match route.targetPort with
  | none => .ok (80, [])
  | some (.int n) => .ok (n, [])
  | some (.str text) =>
    textPort route.source
      ("Route spec.port.targetPort is referenced by name. " ++
        "HTTPRoute requires a numeric port. Resolve from the " ++
        "Service spec.ports.") text

def lowerText (text : Option String) : List Char := lower (text.getD "").toList

def wildcardEntries (route : OpenShiftRoute) : List UnmappedEntry :=
  if lowerText route.wildcardPolicy = "subdomain".toList then
    [route.source.unmapped "wildcard_subdomain" ("wildcardPolicy=" ++ route.wildcardPolicy.getD "")
      ("OpenShift wildcardPolicy: Subdomain has no Gateway API equivalent. " ++
        "Configure individual host-specific HTTPRoutes for each subdomain.")]
  else []

def RouteTls.isInline (tls : RouteTls) : Bool :=
  (nonEmpty? tls.certificate).isSome || (nonEmpty? tls.key).isSome

def routeTermination (route : OpenShiftRoute) : List Listener × List UnmappedEntry :=
  let termination := lowerText route.tls.termination
  if termination = "edge".toList then
    ([], [if route.tls.isInline then
        route.source.unmapped "tls_edge_inline_cert" "tls.termination=edge with inline certificate/key"
          ("Edge TLS with an inline certificate/key: the certificate and key " ++
            "must be stored in a Kubernetes Secret and referenced from the Gateway " ++
            "listener certificateRefs. Forge cannot fabricate a Secret from inline " ++
            "Route TLS fields. Create a Secret manually and update the listener.")
      else
        route.source.unmapped "tls_edge_router_default_cert"
          "tls.termination=edge (router default certificate)"
          ("Edge TLS used the router default certificate; provide a Kubernetes " ++
            "Secret with the certificate and configure it on the Gateway listener " ++
            "certificateRefs.")])
  else if termination = "reencrypt".toList then
    let backend := route.source.unmapped "backend_tls" "tls.termination=reencrypt (backend leg)"
      ("Re-encrypt to the backend has no standard Gateway-API expression; " ++
        "configure backend TLS via a BackendTLSPolicy or service-mesh sidecar.")
    if route.tls.isInline then
      ([], [route.source.unmapped "tls_reencrypt_inline_cert"
        "tls.termination=reencrypt with inline certificate/key"
        ("Re-encrypt TLS with inline certificate/key: store the certificate " ++
          "and key in a Kubernetes Secret and reference it from the Gateway " ++
          "listener certificateRefs. Forge cannot fabricate a Secret."), backend])
    else
      ([{ name := "https-reencrypt-" ++ takeText 20 route.name, port := 443, protocol := "HTTPS"
          hostname := some ((nonEmpty? route.host).getD "*"), tls := some (.terminate []) }],
        [route.source.unmapped "tls_reencrypt_no_secret"
          "tls.termination=reencrypt (router default certificate)"
          ("Re-encrypt TLS used the router default certificate for the client leg; " ++
            "provide a Kubernetes Secret and configure the Gateway listener. " ++
            "Forge has emitted a Terminate listener placeholder."), backend])
  else ([], [])

def routeRule (route : OpenShiftRoute) (gw : String) (port : Int) (service : String) :
    RouteRule × List UnmappedEntry :=
  let alternates := route.alternateBackends.filterMap fun alt ↦
    (nonEmpty? alt.name).map fun name ↦ { name := name, port := port, weight := alt.weight }
  let primary : BackendRef :=
    { name := service, port := port
      ns := if route.ns ≠ gw then some route.ns else none
      weight := if route.alternateBackends.isEmpty then none else some (route.toWeight.getD 100) }
  ({ routeMatches := [.path .pathPrefix ((nonEmpty? route.path).getD "/")]
     backendRefs := primary :: alternates },
    if route.ns ≠ gw then
      [route.source.unmapped "cross_namespace_backend" (service ++ "." ++ route.ns)
        "Cross-namespace backend requires a ReferenceGrant."]
    else [])

/-- `_route_to_bnk`. -/
def routeToBnk (targetNamespace : Option String) (route : OpenShiftRoute) :
    Except Raised FrontHalf := do
  let (port, portEntries) ← routePort route
  let hostnames := (nonEmpty? route.host).toList
  if lowerText route.tls.termination = "passthrough".toList then
    return {
      hostnames
      unmapped := wildcardEntries route ++ portEntries ++
        [route.source.unmapped "tls_passthrough" "tls.termination=passthrough"
          ("TLS passthrough has no standard Gateway-API HTTPRoute expression; " ++
            "use an alpha TLSRoute with mode: Passthrough — verify the CRD is " ++
            "installed (gateway.networking.k8s.io/v1alpha2).")] }
  let tls := routeTermination route
  let rule := (nonEmpty? route.toName).map
    (routeRule route (localNamespace targetNamespace route.ns) port)
  return {
    rules := (rule.map (·.1)).toList
    hostnames
    tlsListeners := tls.1
    unmapped := wildcardEntries route ++ portEntries ++ tls.2 ++ (rule.map (·.2)).getD [] }

/-! ### IngressLinks -/

structure IngressLink where
  name : String := "unknown"
  ns : String := "default"
  host : Option String := none
  matchLabels : List (String × String) := []
  tls : Value := .none
  fields : List (String × Value) := []

def IngressLink.source (il : IngressLink) : Source := ⟨"IngressLink", il.name, il.ns⟩

/-- `REPLACE_WITH_SELECTED_SERVICE`. -/
def selectedPlaceholder : String := "REPLACE_WITH_SELECTED_SERVICE"

def selectorText (labels : List (String × String)) : String :=
  ",".intercalate ((labels.mergeSort fun a b ↦ a.1 ≤ b.1).map fun l ↦ l.1 ++ "=" ++ l.2)

section

variable (repr : Value → String)

/-- `_ingresslink_to_bnk`. -/
def ingresslinkToBnk (il : IngressLink) : FrontHalf :=
  let selector := selectorText il.matchLabels
  { rules := [{ routeMatches := [.path .pathPrefix "/"]
                backendRefs := [{ name := selectedPlaceholder, port := 80 }] }]
    hostnames := (nonEmpty? il.host).toList
    unmapped :=
      fieldEntry repr il.source il.fields "vip_address" "virtualServerAddress"
        ("BIG-IP VIP / IPAM address: the re-IP/DNS cutover step " ++
          "replaces this endpoint. Update DNS to the new BNK Gateway address " ++
          "after verification.") ++
      [il.source.unmapped "ingresslink_selector"
        ("selector.matchLabels=" ++ if selector = "" then "(empty)" else selector)
        ("IngressLink spec.selector selects the fronted nginx-ingress Service by " ++
          "label. The selector cannot be resolved to a Service name without a live " ++
          "cluster query. Replace REPLACE_WITH_SELECTED_SERVICE in the backendRef " ++
          "with the actual Service name matched by these labels.")] ++
      iruleEntries repr il.source il.fields
        ("iRules are BIG-IP proprietary and have no Gateway API equivalent. " ++
          "Replicate the logic using HTTPRoute filters or ExtensionRef policies.") ++
      (if il.tls.truthy then
        [il.source.unmapped "tls_profile_ref" (il.tls.toText repr)
          ("IngressLink TLS configuration cannot be automatically mapped. " ++
            "Provide a Kubernetes Secret and configure the Gateway listener certificateRefs.")]
        else []) ++
      policyEntries repr il.source il.fields "and attach it to the target Gateway."
        ("BIG-IP-native policy reference; verify the policy type and map to " ++
          "the appropriate BNK CRD: BNKSecPolicy, F5BigFwPolicy, or BNKNetPolicy.") }

/-! ### TransportServers -/

structure TransportServer where
  name : String := "unknown"
  ns : String := "default"
  type : Option String := none
  pool : Pool := {}
  poolRaw : Value := .dict []
  virtualServerPort : Option Int := none
  port : Option Int := none
  fields : List (String × Value) := []

def TransportServer.source (ts : TransportServer) : Source := ⟨"TransportServer", ts.name, ts.ns⟩

/-- A TCPRoute or UDPRoute. -/
structure TcpUdpRoute where
  kind : String
  name : String
  ns : String
  gatewayName : String
  gatewayNamespace : String
  sectionName : String
  backend : BackendRef

def transportPort (ts : TransportServer) : Except Raised (Int × List UnmappedEntry) :=
  match ts.pool.servicePort? with
  | none => .ok (80, [])
  | some (.int n) => .ok (if n = 0 then 80 else n, [])
  | some (.str text) =>
    textPort ts.source
      ("Service port is referenced by name. TCPRoute/UDPRoute requires a " ++
        "numeric port. Resolve from the Service spec.ports.") text

/-- `_transportserver_to_route`, with `_build_tcpudp_route`. -/
def transportserverToRoute (gatewayName gatewayNamespace : String) (ts : TransportServer) :
    Except Raised (Option TcpUdpRoute × List UnmappedEntry) := do
  let routeType := String.ofList (lower ((nonEmpty? ts.type).getD "tcp").toList)
  if routeType ≠ "tcp" ∧ routeType ≠ "udp" then
    return (none, [ts.source.unmapped "transport_type" ("type=" ++ routeType)
      ("Unknown TransportServer type '" ++ routeType ++ "'. Only 'tcp' and 'udp' " ++
        "are supported. This TransportServer is skipped.")])
  match ts.pool.service? with
  | none =>
    return (none, [ts.source.unmapped "no_pool_service" (ts.poolRaw.toText repr)
      "TransportServer pool has no service name. Cannot generate a backendRef."])
  | some service =>
    let (port, portEntries) ← transportPort ts
    let vsPort := (nonZero? ts.virtualServerPort).getD ((nonZero? ts.port).getD port)
    let vip := (fieldOf ts.fields "virtualServerAddress").orElse (fieldOf ts.fields "ipamLabel")
    return (some {
        kind := if routeType = "tcp" then "TCPRoute" else "UDPRoute"
        name := ts.name, ns := ts.ns
        gatewayName, gatewayNamespace
        sectionName := "port-" ++ toString vsPort
        backend := { name := service, port } },
      portEntries ++
        iruleEntries repr ts.source ts.fields
          "iRules are BIG-IP proprietary and have no Gateway API equivalent." ++
        policyEntries repr ts.source ts.fields "and attach it to the target TCPRoute."
          ("BIG-IP-native policy reference; verify the policy type and map to " ++
            "the appropriate BNK CRD: BNKSecPolicy, F5BigFwPolicy, or BNKNetPolicy.") ++
        if vip.truthy then
          [ts.source.unmapped "vip_address" (vip.toText repr)
            "BIG-IP VIP / IPAM address: the re-IP/DNS cutover step replaces this endpoint."]
        else [])

end

end BnkForge.Proxy
