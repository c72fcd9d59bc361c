import BnkForge.Proxy.Manifest

/-!
# Ingresses to one HTTPRoute

`_ingress_to_httproute` (`backend/services/proxy_translate_service.py:180–367`) with the collector of
annotations (`:640–750`). All Ingresses are folded into one route: its rules, its hostnames, the TLS
listeners, and the namespace, which is that of the first backend.
-/

namespace BnkForge.Proxy

open Python

/-! ### The source objects -/

structure ServiceBackend where
  name : Option String := none
  portNumber : Option Int := none
  portName : Option String := none
  deriving DecidableEq, Repr

structure IngressPath where
  path : Option String := none
  pathType : Option String := none
  backend : ServiceBackend := {}
  deriving DecidableEq, Repr

structure IngressRule where
  host : Option String := none
  paths : List IngressPath := []
  deriving DecidableEq, Repr

structure IngressTls where
  secretName : Option String := none
  hosts : List String := []
  deriving DecidableEq, Repr

structure Ingress where
  name : String := "unknown"
  ns : String := "default"
  annotations : List (String × String) := []
  tls : List IngressTls := []
  rules : List IngressRule := []
  defaultBackend : Option ServiceBackend := none
  deriving DecidableEq, Repr

def Ingress.fallback (ing : Ingress) : ServiceBackend := ing.defaultBackend.getD {}

def Ingress.source (ing : Ingress) : Source := ⟨"Ingress", ing.name, ing.ns⟩

/-! ### Annotations -/

/-- `_F5_ANNOTATION_REASONS`. -/
def f5AnnotationReasons : List (String × String) :=
  [("virtual-server.f5.com/ip",
      "BIG-IP VIP address (re-IP/DNS cutover replaces it). " ++
      "Update DNS to point to the new BNK Gateway address after migration."),
    ("virtual-server.f5.com/clientssl",
      "TLS profile referenced by name (BIG-IP Secret). " ++
      "Provide a Kubernetes Secret with the certificate and update the " ++
      "Gateway listener certificateRefs."),
    ("virtual-server.f5.com/health",
      "BIG-IP health monitor has no direct Gateway API equivalent. " ++
      "Configure readiness probes on the backend Service/Pod."),
    ("virtual-server.f5.com/balance",
      "BIG-IP load-balancing algorithm has no direct Gateway API equivalent. " ++
      "Gateway API does not expose an LB algorithm selector; " ++
      "configure at the backend Service / EndpointSlice level."),
    ("virtual-server.f5.com/partition",
      "BIG-IP partition is not applicable to in-cluster Gateway API. " ++
      "The migration moves the data path into the Kubernetes cluster; " ++
      "manual BIG-IP partition cleanup required post-migration."),
    ("ingress.kubernetes.io/ssl-redirect",
      "SSL redirect flag — configure an HTTPRoute filter (RequestRedirect " ++
      "scheme=https) to reproduce this behaviour."),
    ("ingress.kubernetes.io/allow-http",
      "allow-http flag — configure an HTTPRoute filter (RequestRedirect " ++
      "scheme=https + deny HTTP) to reproduce this behaviour.")]

/-- `key.startswith(start)`. -/
def startsWith (key start : String) : Bool := start.toList.isPrefixOf key.toList

def annotationReason (proxyType key : String) : Option String :=
  if startsWith key "nginx.ingress.kubernetes.io" && proxyType == "nginx" then
    some ("NGINX-specific annotation has no direct Gateway API equivalent. " ++
      "Implement equivalent behaviour via Gateway API filters or policies.")
  else if startsWith key "haproxy.org" && proxyType == "haproxy" then
    some ("HAProxy-specific annotation has no direct Gateway API equivalent. " ++
      "Review and implement via Gateway API policies.")
  else if contains (lower key.toList) "envoy".toList then
    some "Envoy-specific annotation cannot be automatically mapped. Review manually."
  else if (startsWith key "virtual-server.f5.com" || (f5AnnotationReasons.lookup key).isSome) &&
      ["cis-f5", "cis-bigip", "f5"].contains proxyType then
    some ((f5AnnotationReasons.lookup key).getD
      ("F5 CIS-specific annotation '" ++ key ++ "' has no direct Gateway API equivalent. " ++
        "Review and implement via Gateway API filters or policies."))
  else none

/-- `_collect_unmapped_annotations`. -/
def collectUnmappedAnnotations (proxyType : String) (s : Source)
    (annotations : List (String × String)) : List UnmappedEntry :=
  annotations.filterMap fun a ↦
    (annotationReason proxyType a.1).map fun reason ↦
      s.unmapped "annotation" (a.1 ++ "=" ++ a.2) reason

/-! ### One Ingress -/

structure Collected where
  rules : List RouteRule := []
  hostnames : List String := []
  tlsListeners : List Listener := []
  gwNamespace : Option String := none
  unmapped : List UnmappedEntry := []

def Collected.flag (acc : Collected) (entries : List UnmappedEntry) : Collected :=
  { acc with unmapped := acc.unmapped ++ entries }

/-- `_INGRESS_PATH_TYPE_MAP`. -/
def ingressPathTypeMap : String → Option MatchType
  | "Prefix" => some .pathPrefix
  | "Exact" => some .exact
  | _ => none

def translateTls (ing : Ingress) (acc : Collected) (entry : IngressTls) : Collected :=
  let hostnames := entry.hosts.foldl addHostname acc.hostnames
  match nonEmpty? entry.secretName with
  | none => { acc with hostnames := hostnames }
  | some secretName =>
    { acc with
      hostnames := hostnames
      tlsListeners := acc.tlsListeners ++ [{
        name := "https-" ++ takeText 20 secretName
        port := 443
        protocol := "HTTPS"
        hostname := some (entry.hosts.headD "*")
        tls := some (.terminate [⟨secretName, ing.ns⟩]) }] }

def pathValue (p : IngressPath) : String := (nonEmpty? p.path).getD "/"

def pathTypeOf (p : IngressPath) : String := (nonEmpty? p.pathType).getD "Prefix"

def portByName (b : ServiceBackend) : Option String :=
  if (nonZero? b.portNumber).isSome then none else nonEmpty? b.portName

/-- The number of a port, where `80` stands for one that is not known. -/
def portOr80 (b : ServiceBackend) : Int := (nonZero? b.portNumber).getD 80

def Ingress.pathTypeEntry (ing : Ingress) (p : IngressPath) : UnmappedEntry :=
  ing.source.unmapped "path_type" ("pathType=" ++ pathTypeOf p ++ " path=" ++ pathValue p)
    ("ImplementationSpecific path type translated to PathPrefix. " ++
      "Review behaviour — actual matching semantics may differ.")

def pathFlags (ing : Ingress) (p : IngressPath) (svcName gw : String) : List UnmappedEntry :=
  (if ing.ns ≠ gw then
    [ing.source.unmapped "cross_namespace_backend" (svcName ++ "." ++ ing.ns)
      ("Cross-namespace backend requires a ReferenceGrant. " ++
        "HTTPRoute is placed in the first backend's namespace; " ++
        "this backend lives in '" ++ ing.ns ++ "'.")]
    else []) ++
  ((portByName p.backend).map ing.source.portByName).toList ++
  (if (ingressPathTypeMap (pathTypeOf p)).isNone then [ing.pathTypeEntry p] else [])

def pathRule (ing : Ingress) (p : IngressPath) (svcName gw : String) : RouteRule :=
  { routeMatches := [.path ((ingressPathTypeMap (pathTypeOf p)).getD .pathPrefix) (pathValue p)]
    backendRefs := [{ name := svcName, port := portOr80 p.backend,
                      ns := if gw ≠ "" ∧ ing.ns ≠ gw then some ing.ns else none }] }

/-- A path: it is passed over where it has no service. -/
def translatePath (ing : Ingress) (acc : Collected) (p : IngressPath) : Collected :=
  match nonEmpty? p.backend.name with
  | none => acc
  | some svcName =>
    let gw := acc.gwNamespace.getD ing.ns
    { acc with
      gwNamespace := some gw
      rules := acc.rules ++ [pathRule ing p svcName gw]
      unmapped := acc.unmapped ++ pathFlags ing p svcName gw }

def translateRule (ing : Ingress) (acc : Collected) (r : IngressRule) : Collected :=
  r.paths.foldl (translatePath ing)
    { acc with hostnames := r.host.elim acc.hostnames (addHostname acc.hostnames) }

def defaultRule (b : ServiceBackend) (svcName : String) : RouteRule :=
  { routeMatches := [.path .pathPrefix "/"], backendRefs := [{ name := svcName, port := portOr80 b }] }

def translateDefault (ing : Ingress) (acc : Collected) : Collected :=
  match nonEmpty? ing.fallback.name with
  | none => acc
  | some svcName => { acc with rules := acc.rules ++ [defaultRule ing.fallback svcName] }

def translateIngress (proxyType : String) (acc : Collected) (ing : Ingress) : Collected :=
  let acc := acc.flag (collectUnmappedAnnotations proxyType ing.source ing.annotations)
  let acc := ing.tls.foldl (translateTls ing) acc
  let acc := ing.rules.foldl (translateRule ing) acc
  translateDefault ing acc

/-! ### What one Ingress adds -/

def servicesOf (ps : List IngressPath) : List (IngressPath × String) :=
  ps.filterMap fun p ↦ (nonEmpty? p.backend.name).map fun n ↦ (p, n)

def Ingress.services (ing : Ingress) : List (IngressPath × String) :=
  servicesOf (ing.rules.flatMap (·.paths))

def Ingress.defaultRules (ing : Ingress) : List RouteRule :=
  ((nonEmpty? ing.fallback.name).map (defaultRule ing.fallback)).toList

/-- The rules of an Ingress in a route of the namespace `gw`. -/
def Ingress.routeRules (ing : Ingress) (gw : String) : List RouteRule :=
  (ing.services.map fun p ↦ pathRule ing p.1 p.2 gw) ++ ing.defaultRules

def Ingress.hosts (ing : Ingress) : List String :=
  ing.tls.flatMap (·.hosts) ++ ing.rules.filterMap (·.host)

def tlsListener (ing : Ingress) (entry : IngressTls) (secretName : String) : Listener :=
  { name := "https-" ++ takeText 20 secretName
    port := 443
    protocol := "HTTPS"
    hostname := some (entry.hosts.headD "*")
    tls := some (.terminate [⟨secretName, ing.ns⟩]) }

def Ingress.listeners (ing : Ingress) : List Listener :=
  ing.tls.filterMap fun entry ↦ (nonEmpty? entry.secretName).map (tlsListener ing entry)

/-- What is flagged of an Ingress in a route of the namespace `gw`. -/
def Ingress.flags (proxyType : String) (ing : Ingress) (gw : String) : List UnmappedEntry :=
  collectUnmappedAnnotations proxyType ing.source ing.annotations ++
    ing.services.flatMap fun p ↦ pathFlags ing p.1 p.2 gw

def nextNamespace (services : List (IngressPath × String)) (ns : String)
    (gwNamespace : Option String) : Option String :=
  if services.isEmpty then gwNamespace else some (gwNamespace.getD ns)

@[simp] theorem nextNamespace_getD (services : List (IngressPath × String)) (ns : String)
    (gwNamespace : Option String) :
    (nextNamespace services ns gwNamespace).getD ns = gwNamespace.getD ns := by
  unfold nextNamespace
  split <;> rfl

theorem nextNamespace_append (a b : List (IngressPath × String)) (ns : String)
    (gwNamespace : Option String) :
    nextNamespace b ns (nextNamespace a ns gwNamespace) = nextNamespace (a ++ b) ns gwNamespace := by
  cases a <;> cases b <;> simp [nextNamespace]

theorem foldl_translatePath (ing : Ingress) (ps : List IngressPath) (acc : Collected) :
    ps.foldl (translatePath ing) acc =
      { acc with
        rules := acc.rules ++
          (servicesOf ps).map fun p ↦ pathRule ing p.1 p.2 (acc.gwNamespace.getD ing.ns)
        gwNamespace := nextNamespace (servicesOf ps) ing.ns acc.gwNamespace
        unmapped := acc.unmapped ++
          (servicesOf ps).flatMap fun p ↦ pathFlags ing p.1 p.2 (acc.gwNamespace.getD ing.ns) } := by
  induction ps generalizing acc with
  | nil => simp [servicesOf, nextNamespace]
  | cons p ps ih =>
    rw [List.foldl_cons, ih]
    cases h : nonEmpty? p.backend.name with
    | none => simp [translatePath, servicesOf, h]
    | some n => simp [translatePath, servicesOf, nextNamespace, h]

theorem foldl_translateRule (ing : Ingress) (rs : List IngressRule) (acc : Collected) :
    rs.foldl (translateRule ing) acc =
      { acc with
        rules := acc.rules ++ (servicesOf (rs.flatMap (·.paths))).map
          fun p ↦ pathRule ing p.1 p.2 (acc.gwNamespace.getD ing.ns)
        hostnames := (rs.filterMap (·.host)).foldl addHostname acc.hostnames
        gwNamespace := nextNamespace (servicesOf (rs.flatMap (·.paths))) ing.ns acc.gwNamespace
        unmapped := acc.unmapped ++ (servicesOf (rs.flatMap (·.paths))).flatMap
          fun p ↦ pathFlags ing p.1 p.2 (acc.gwNamespace.getD ing.ns) } := by
  induction rs generalizing acc with
  | nil => simp [servicesOf, nextNamespace]
  | cons r rs ih =>
    have hservices : servicesOf ((r :: rs).flatMap (·.paths)) =
        servicesOf r.paths ++ servicesOf (rs.flatMap (·.paths)) := by
      simp [servicesOf]
    rw [List.foldl_cons, ih, translateRule, foldl_translatePath, hservices, ← nextNamespace_append]
    cases hhost : r.host <;> simp [hhost]

theorem foldl_translateTls (ing : Ingress) (entries : List IngressTls) (acc : Collected) :
    entries.foldl (translateTls ing) acc =
      { acc with
        hostnames := (entries.flatMap (·.hosts)).foldl addHostname acc.hostnames
        tlsListeners := acc.tlsListeners ++ entries.filterMap fun entry ↦
          (nonEmpty? entry.secretName).map (tlsListener ing entry) } := by
  induction entries generalizing acc with
  | nil => simp
  | cons entry entries ih =>
    rw [List.foldl_cons, ih]
    cases h : nonEmpty? entry.secretName with
    | none => simp [translateTls, h]
    | some secretName => simp [translateTls, h, tlsListener]

theorem translateIngress_eq (proxyType : String) (acc : Collected) (ing : Ingress) :
    translateIngress proxyType acc ing =
      { rules := acc.rules ++ ing.routeRules (acc.gwNamespace.getD ing.ns)
        hostnames := ing.hosts.foldl addHostname acc.hostnames
        tlsListeners := acc.tlsListeners ++ ing.listeners
        gwNamespace := nextNamespace ing.services ing.ns acc.gwNamespace
        unmapped := acc.unmapped ++ ing.flags proxyType (acc.gwNamespace.getD ing.ns) } := by
  simp only [translateIngress, foldl_translateTls, foldl_translateRule, translateDefault,
    Collected.flag]
  cases h : nonEmpty? ing.fallback.name with
  | none =>
    simp [Ingress.routeRules, Ingress.defaultRules, Ingress.services, Ingress.hosts,
      Ingress.listeners, Ingress.flags, h]
  | some svcName =>
    simp [Ingress.routeRules, Ingress.defaultRules, Ingress.services, Ingress.hosts,
      Ingress.listeners, Ingress.flags, h]

/-! ### All Ingresses -/

/-- What a translation of source objects gives: the route, the listeners, the namespace that was found
and the entries. -/
structure Translated where
  route : HttpRoute
  listeners : List Listener
  gwNamespace : Option String
  unmapped : List UnmappedEntry

/-- `gw_namespace or "default"`. -/
def orDefault (gwNamespace : Option String) : String := (nonEmpty? gwNamespace).getD "default"

/-- `_build_httproute`: a route of the new gateway, in its namespace. -/
def buildHttproute (gatewayName : String) (gwNamespace : Option String) (hostnames : List String)
    (rules : List RouteRule) : HttpRoute :=
  { name := gatewayName, ns := orDefault gwNamespace, gatewayName := gatewayName
    gatewayNamespace := orDefault gwNamespace, hostnames := hostnames, rules := rules }

def noRulesEntry : UnmappedEntry :=
  ⟨"Ingress", "(none)", "(none)", "no_rules", "No Ingress rules found for this class",
    "No matching Ingress objects found. Replace the placeholder backendRef before applying."⟩

/-- What the Ingresses give before the route is built. -/
def collectIngresses (proxyType : String) (targetNamespace : Option String)
    (ingresses : List Ingress) : Collected :=
  ingresses.foldl (translateIngress proxyType) { gwNamespace := targetNamespace }

/-- `_ingress_to_httproute`. -/
def ingressToHttproute (proxyType gatewayName : String) (targetNamespace : Option String)
    (ingresses : List Ingress) : Translated :=
  let acc := collectIngresses proxyType targetNamespace ingresses
  { route := buildHttproute gatewayName acc.gwNamespace acc.hostnames
      (if acc.rules.isEmpty then [placeholderRule] else acc.rules)
    listeners := buildListeners acc.tlsListeners
    gwNamespace := acc.gwNamespace
    unmapped := acc.unmapped ++ if acc.rules.isEmpty then [noRulesEntry] else [] }

/-! ### What all Ingresses give -/

/-- The namespace of the route: the override, or the namespace of the first Ingress that has a path
with a service. -/
def ingressNamespace (targetNamespace : Option String) (ingresses : List Ingress) : Option String :=
  targetNamespace.or ((ingresses.find? fun ing ↦ !ing.services.isEmpty).map (·.ns))

theorem routeRules_of_empty {ing : Ingress} (h : ing.services = []) (gw gw' : String) :
    ing.routeRules gw = ing.routeRules gw' := by
  simp [Ingress.routeRules, h]

theorem flags_of_empty {ing : Ingress} (h : ing.services = []) (proxyType gw gw' : String) :
    ing.flags proxyType gw = ing.flags proxyType gw' := by
  simp [Ingress.flags, h]

theorem ingressNamespace_cons (target : Option String) (ing : Ingress) (ings : List Ingress) :
    ingressNamespace (nextNamespace ing.services ing.ns target) ings =
      ingressNamespace target (ing :: ings) := by
  cases h : ing.services with
  | nil => simp [ingressNamespace, nextNamespace, h]
  | cons first rest => cases target <;> simp [ingressNamespace, nextNamespace, h]

theorem ingressNamespace_of_services {target : Option String} {ing : Ingress} {ings : List Ingress}
    (h : ing.services ≠ []) : ingressNamespace target (ing :: ings) = some (target.getD ing.ns) := by
  cases target <;> simp [ingressNamespace, h]

theorem foldl_translateIngress (proxyType : String) (ings : List Ingress) (acc : Collected) :
    ings.foldl (translateIngress proxyType) acc =
      { rules := acc.rules ++
          ings.flatMap fun ing ↦ ing.routeRules ((ingressNamespace acc.gwNamespace ings).getD "")
        hostnames := (ings.flatMap (·.hosts)).foldl addHostname acc.hostnames
        tlsListeners := acc.tlsListeners ++ ings.flatMap (·.listeners)
        gwNamespace := ingressNamespace acc.gwNamespace ings
        unmapped := acc.unmapped ++ ings.flatMap fun ing ↦
          ing.flags proxyType ((ingressNamespace acc.gwNamespace ings).getD "") } := by
  induction ings generalizing acc with
  | nil => simp [ingressNamespace]
  | cons ing ings ih =>
    have hgw : ing.services = [] ∨
        (ingressNamespace acc.gwNamespace (ing :: ings)).getD "" = acc.gwNamespace.getD ing.ns := by
      by_cases h : ing.services = []
      · exact .inl h
      · exact .inr (by rw [ingressNamespace_of_services h, Option.getD_some])
    have hrules : ing.routeRules (acc.gwNamespace.getD ing.ns) =
        ing.routeRules ((ingressNamespace acc.gwNamespace (ing :: ings)).getD "") := by
      obtain h | h := hgw
      · exact routeRules_of_empty h _ _
      · rw [h]
    have hflags : ing.flags proxyType (acc.gwNamespace.getD ing.ns) =
        ing.flags proxyType ((ingressNamespace acc.gwNamespace (ing :: ings)).getD "") := by
      obtain h | h := hgw
      · exact flags_of_empty h _ _ _
      · rw [h]
    rw [List.foldl_cons, ih, translateIngress_eq]
    simp only [ingressNamespace_cons, hrules, hflags, List.flatMap_cons, List.append_assoc,
      List.foldl_append]

theorem collectIngresses_eq (proxyType : String) (target : Option String) (ings : List Ingress) :
    collectIngresses proxyType target ings =
      { rules := ings.flatMap fun ing ↦ ing.routeRules ((ingressNamespace target ings).getD "")
        hostnames := (ings.flatMap (·.hosts)).foldl addHostname []
        tlsListeners := ings.flatMap (·.listeners)
        gwNamespace := ingressNamespace target ings
        unmapped := ings.flatMap fun ing ↦
          ing.flags proxyType ((ingressNamespace target ings).getD "") } := by
  rw [collectIngresses, foldl_translateIngress]
  simp

end BnkForge.Proxy
