import BnkForge.Proxy.Manifest

/-!
# VirtualServers of CIS

`_virtualserver_to_httproute`, `_resolve_tlsprofile` and `_collect_vs_unmapped`
(`backend/services/proxy_translate_cis_service.py:1095–1497`): the rules, the hostname, the listeners
and the entries of one VirtualServer. How values print is a parameter.
-/

namespace BnkForge.Proxy

open Python

/-! ### The source objects -/

/-- A port by number or by name. -/
inductive IntOrString
  | int (n : Int)
  | str (s : String)
  deriving DecidableEq, Repr

def IntOrString.truthy : IntOrString → Bool
  | .int n => n != 0
  | .str s => s != ""

/-- `a or b` of ports. -/
def portOrElse (a b : Option IntOrString) : Option IntOrString :=
  if a.any IntOrString.truthy then a else b

/-- `a or b` of texts. -/
def textOrElse (a b : Option String) : Option String := if a.any (· != "") then a else b

structure Pool where
  service : Option String := none
  serviceName : Option String := none
  servicePort : Option IntOrString := none
  port : Option IntOrString := none
  path : Option String := none
  ns : Option String := none
  monitor : Value := .none
  healthMonitor : Value := .none

/-- `spec.tls` of a VirtualServer; `raw` is the whole of it. -/
structure VirtualServerTls where
  clientSSL : Option String := none
  clientSSLProfiles : Value := .none
  clientSSLProfile : Value := .none
  tlsProfileName : Option String := none
  serverSSL : Value := .none
  serverSSLProfiles : Value := .none
  raw : Value := .none

/-- A VirtualServer; `fields` are the fields of its spec that are only flagged. -/
structure VirtualServer where
  name : String := "unknown"
  ns : String := "default"
  host : Option String := none
  pools : List Pool := []
  tls : Option VirtualServerTls := none
  fields : List (String × Value) := []

structure TlsProfile where
  name : String := ""
  ns : String := "default"
  reference : Option String := none
  clientSSL : Option String := none
  serverSSL : Option String := none
  deriving DecidableEq, Repr

def VirtualServer.source (vs : VirtualServer) : Source := ⟨"VirtualServer", vs.name, vs.ns⟩

/-- `pool.get("service") or pool.get("serviceName")`, where it is not empty. -/
def Pool.service? (pool : Pool) : Option String :=
  nonEmpty? (textOrElse pool.service pool.serviceName)

/-- `pool.get("servicePort") or pool.get("port")`. -/
def Pool.servicePort? (pool : Pool) : Option IntOrString := portOrElse pool.servicePort pool.port

def Pool.pathValue (pool : Pool) : String := (nonEmpty? pool.path).getD "/"

def Pool.nsIn (pool : Pool) (vs : VirtualServer) : String := (nonEmpty? pool.ns).getD vs.ns

/-! ### Values that are flagged -/

def fieldOf (fields : List (String × Value)) (key : String) : Value :=
  (fields.lookup key).getD .none

def listOf : Value → List Value
  | .list items => items
  | _ => []

/-- `_CIS_SECURITY_FIELD_TO_BNK_KIND` with `_BNK_SECURITY_KIND_API`: the kind of a policy, with its API
group and version. -/
def securityKind : String → Option (String × String × String)
  | "policyWAF" | "profileBotDefense" | "waf" | "botDefense" =>
    some ("BNKSecPolicy", "gateway.k8s.f5net.com", "v1alpha1")
  | "policyFirewall" | "firewallPolicy" => some ("F5BigFwPolicy", "k8s.f5net.com", "v1")
  | _ => none

/-- What is said of a policy with a kind; `create` says what to do with it. -/
def securityReason (kind : String × String × String) (create : String) : String :=
  "Maps to BNK CRD kind '" ++ kind.1 ++ "' (apiVersion: " ++ kind.2.1 ++ "/" ++ kind.2.2 ++
    "). Create a " ++ kind.1 ++ " CR " ++ create

def policyFields : List String := ["policyName", "waf", "botDefense", "firewallPolicy", "policy"]

section

variable (repr : Value → String)

def fieldEntry (s : Source) (fields : List (String × Value)) (construct key reason : String) :
    List UnmappedEntry :=
  let val := fieldOf fields key
  if val.truthy then [s.unmapped construct (key ++ "=" ++ val.toText repr) reason] else []

def policyEntries (s : Source) (fields : List (String × Value)) (create generic : String) :
    List UnmappedEntry :=
  policyFields.flatMap fun key ↦
    fieldEntry repr s fields "security_policy" key
      ((securityKind key).elim generic fun kind ↦ securityReason kind create)

def iruleEntries (s : Source) (fields : List (String × Value)) (reason : String) :
    List UnmappedEntry :=
  (listOf ((fieldOf fields "iRules").orElse (fieldOf fields "irules"))).map fun irule ↦
    s.unmapped "irule" (irule.toText repr) reason

/-- `_collect_vs_unmapped`. -/
def collectVsUnmapped (vs : VirtualServer) : List UnmappedEntry :=
  iruleEntries repr vs.source vs.fields
      ("iRules are BIG-IP proprietary and have no Gateway API equivalent. " ++
        "Replicate the logic using HTTPRoute filters, ExtensionRef policies, " ++
        "or application-layer middleware.") ++
    (["gTMProfile", "hostGroup", "externalDNS", "wideIP"].flatMap fun key ↦
      fieldEntry repr vs.source vs.fields "gtm_externaldns" key
        ("GTM / ExternalDNS / hostGroup wide-IP configuration has no " ++
          "direct Gateway API equivalent. Configure DNS separately.")) ++
    fieldEntry repr vs.source vs.fields "route_domain_partition" "partition"
      ("BIG-IP route-domain / partition configuration is not applicable " ++
        "to in-cluster Gateway API. The migration moves the data path " ++
        "into the Kubernetes cluster; manual BIG-IP partition cleanup required.") ++
    (let snat := fieldOf vs.fields "snat"
      if snat.truthy then
        [vs.source.unmapped "snat" (snat.toText repr)
          ("SNAT configuration has no direct Gateway API equivalent. " ++
            "Configure source NAT at the network/node level.")]
      else []) ++
    (["virtualServerAddress", "ipamLabel", "virtualServerIP"].flatMap fun key ↦
      fieldEntry repr vs.source vs.fields "vip_address" key
        ("BIG-IP VIP / IPAM address: the re-IP/DNS cutover step " ++
          "replaces this endpoint. The operator must update DNS to " ++
          "point to the new BNK Gateway address after verification.")) ++
    ([("healthMonitor", "monitor"), ("rewriteAppRoot", "rewrite_app_root"),
        ("allowSourceRange", "allow_source_range"), ("profileMultiplex", "profile_multiplex"),
        ("persistenceProfile", "persistence"), ("cookieRewriteRules", "cookie_rewrite")].flatMap
      fun c ↦ fieldEntry repr vs.source vs.fields c.2 c.1
        ("BIG-IP-native " ++ c.2 ++ " configuration has no direct " ++
          "Gateway API equivalent. Review and implement via HTTPRoute " ++
          "filters, ExtensionRef policies, or sidecar.")) ++
    policyEntries repr vs.source vs.fields
      "referencing this policy and attach it to the target Gateway or HTTPRoute."
      ("BIG-IP-native policy reference; verify the policy type and map to " ++
        "the appropriate BNK CRD: BNKSecPolicy (WAF/Bot, " ++
        "gateway.k8s.f5net.com), F5BigFwPolicy (network firewall, " ++
        "k8s.f5net.com), or BNKNetPolicy (iRules/TCPSettings).") ++
    vs.pools.flatMap fun pool ↦
      let monitor := pool.monitor.orElse pool.healthMonitor
      if monitor.truthy then
        [vs.source.unmapped "monitor"
          ("pool.service=" ++ pool.service?.getD "(unknown)" ++ " monitor=" ++ monitor.toText repr)
          ("BIG-IP pool health monitor has no direct Gateway API equivalent. " ++
            "Configure readiness probes on the backend Service/Pod.")]
      else []

/-! ### Listeners -/

def secretListener (secretName : String) (host : Option String) (ns : String) : Listener :=
  { name := "https-" ++ takeText 20 secretName
    port := 443
    protocol := "HTTPS"
    hostname := some ((nonEmpty? host).getD "*")
    tls := some (.terminate [⟨secretName, ns⟩]) }

/-- `tlsprofile_by_key.get(key)`: by name, with or without the namespace; a later profile takes the
place of an earlier one. -/
def tlsprofileByKey (profiles : List TlsProfile) (key : String) : Option TlsProfile :=
  profiles.reverse.find? fun tp ↦
    tp.name != "" && (tp.ns ++ "/" ++ tp.name == key || tp.name == key)

/-- `_resolve_tlsprofile`. -/
def resolveTlsprofile (profiles : List TlsProfile) (vs : VirtualServer) (profileName : String) :
    List Listener × List UnmappedEntry :=
  let shown := "tlsProfileName=" ++ repr (.str profileName)
  match tlsprofileByKey profiles profileName with
  | none =>
    ([], [vs.source.unmapped "tls_profile_ref" shown
      ("Referenced TLSProfile '" ++ profileName ++ "' not found in cluster scan. " ++
        "Ensure the TLSProfile CR exists and re-scan, or provide a Kubernetes " ++
        "Secret directly via spec.tls.clientSSL.")])
  | some tp =>
    if lower (tp.reference.getD "").toList = "bigip".toList then
      let clientSSL :=
        (nonEmpty? (textOrElse tp.clientSSL tp.serverSSL)).getD profileName
      ([], [vs.source.unmapped "tls_profile_ref"
        (shown ++ " reference=bigip clientSSL=" ++ repr (.str clientSSL))
        ("TLSProfile references a BIG-IP-native SSL profile; provide a Kubernetes " ++
          "Secret with the certificate and configure it on the Gateway listener " ++
          "certificateRefs.")])
    else
      match nonEmpty? (textOrElse tp.clientSSL tp.serverSSL) with
      | none =>
        ([], [vs.source.unmapped "tls_profile_ref" (shown ++ " reference=secret (no Secret name)")
          ("TLSProfile has reference=secret but no clientSSL/serverSSL Secret name. " ++
            "Update the TLSProfile CR to set spec.tls.clientSSL to a Kubernetes Secret name.")])
      | some secretName => ([secretListener secretName vs.host vs.ns], [])

def clientTls (profiles : List TlsProfile) (vs : VirtualServer) (tls : VirtualServerTls) :
    List Listener × List UnmappedEntry :=
  let profileRef := tls.clientSSLProfiles.orElse tls.clientSSLProfile
  match nonEmpty? tls.clientSSL, nonEmpty? tls.tlsProfileName with
  | some secretName, _ => ([secretListener secretName vs.host vs.ns], [])
  | none, some profileName => resolveTlsprofile repr profiles vs profileName
  | none, none =>
    if profileRef.truthy then
      ([], [vs.source.unmapped "tls_profile_ref" (profileRef.toText repr)
        ("BIG-IP-native TLS profile by name cannot be automatically " ++
          "mapped. Provide a Kubernetes Secret with the certificate " ++
          "and update the Gateway listener certificateRefs.")])
    else
      ([], [vs.source.unmapped "tls_profile_ref" (tls.raw.toText repr)
        ("BIG-IP-native TLS configuration cannot be automatically " ++
          "mapped. Provide a Kubernetes Secret and update the Gateway " ++
          "listener certificateRefs.")])

def serverTls (vs : VirtualServer) (tls : VirtualServerTls) : List UnmappedEntry :=
  let backendSsl := tls.serverSSL.orElse tls.serverSSLProfiles
  if backendSsl.truthy then
    [vs.source.unmapped "server_ssl_profile" (backendSsl.toText repr)
      ("BIG-IP serverSSL / serverSSLProfiles (backend mTLS) has no direct " ++
        "Gateway API equivalent. Configure backend TLS via BackendTLSPolicy " ++
        "or a service mesh sidecar.")]
  else []

/-! ### One VirtualServer -/

/-- What one source object gives: rules, hostnames, listeners, entries and a namespace. -/
structure FrontHalf where
  rules : List RouteRule := []
  hostnames : List String := []
  tlsListeners : List Listener := []
  unmapped : List UnmappedEntry := []

/-- The number of a port, where `80` stands for one that is not known. -/
def IntOrString.number : Option IntOrString → Int
  | some (.int n) => if n = 0 then 80 else n
  | _ => 80

/-- `target_namespace or vs_ns`. -/
def localNamespace (targetNamespace : Option String) (ns : String) : String :=
  (nonEmpty? targetNamespace).getD ns

def poolFlags (vs : VirtualServer) (gw : String) (pool : Pool) (service : String) :
    List UnmappedEntry :=
  (match pool.servicePort? with
    | some (.str portName) => [vs.source.portByName portName]
    | _ => []) ++
  (if pool.nsIn vs ≠ gw then
    [vs.source.unmapped "cross_namespace_backend" (service ++ "." ++ pool.nsIn vs)
      ("Cross-namespace backend requires a ReferenceGrant. " ++
        "HTTPRoute is placed in the first backend's namespace; " ++
        "this backend lives in '" ++ pool.nsIn vs ++ "'.")]
    else [])

def poolRule (vs : VirtualServer) (gw : String) (pool : Pool) (service : String) : RouteRule :=
  { routeMatches := [.path .pathPrefix pool.pathValue]
    backendRefs := [{ name := service, port := IntOrString.number pool.servicePort?
                      ns := if pool.nsIn vs ≠ gw then some (pool.nsIn vs) else none }] }

def VirtualServer.services (vs : VirtualServer) : List (Pool × String) :=
  vs.pools.filterMap fun pool ↦ pool.service?.map fun service ↦ (pool, service)

/-- `_virtualserver_to_httproute`: a pool without a service is passed over. -/
def virtualserverToHttproute (profiles : List TlsProfile) (targetNamespace : Option String)
    (vs : VirtualServer) : FrontHalf :=
  let gw := localNamespace targetNamespace vs.ns
  let tls := vs.tls.elim ([], []) (clientTls repr profiles vs)
  { rules := vs.services.map fun p ↦ poolRule vs gw p.1 p.2
    hostnames := (nonEmpty? vs.host).toList
    tlsListeners := tls.1
    unmapped := collectVsUnmapped repr vs ++ (vs.services.flatMap fun p ↦ poolFlags vs gw p.1 p.2) ++
      tls.2 ++ vs.tls.elim [] (serverTls repr vs) }

end

end BnkForge.Proxy
