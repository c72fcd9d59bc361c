import BnkForge.Lib.IPv4
import BnkForge.Proxy.Manifest

/-!
# AS3 declarations

`_as3_declaration_to_bnk` (`backend/services/proxy_translate_cis_service.py:111–423`): the walk over
the tenants, applications and services of a declaration. The declaration is JSON of any shape, and what
the walk does with it can raise.
-/

namespace BnkForge.Proxy

open Python

/-! ### Addresses -/

/-- A group of hexadecimal digits of an IPv6 address. -/
def isHextet (cs : List Char) : Bool :=
  !cs.isEmpty && cs.length ≤ 4 && cs.all fun c ↦
    c.isDigit || ('a' ≤ c && c ≤ 'f') || ('A' ≤ c && c ≤ 'F')

/-- The groups of an IPv6 address, where an address of IPv4 at the end counts as two. -/
def ipv6Groups (cs : List Char) : Option (List (List Char)) :=
  let parts := cs.splitOn ':'
  let last := parts.getLastD []
  if parts.length < 3 then none
  else if last.contains '.' then
    if (IPv4.parse (String.ofList last)).isSome then some (parts.dropLast ++ [['0'], ['0']]) else none
  else some parts

/-- The groups are those of an address: eight, or fewer around one `::`. -/
def areIpv6Groups (parts : List (List Char)) : Bool :=
  let inner := (parts.drop 1).dropLast
  let first := parts.headD []
  let last := parts.getLastD []
  match inner.findIdx? (·.isEmpty) with
  | none => parts.length == 8 && parts.all isHextet
  | some skip =>
    let high := parts.take (skip + 1)
    let low := parts.drop (skip + 2)
    let keptHigh := if first.isEmpty then high.drop 1 else high
    let keptLow := if last.isEmpty then low.dropLast else low
    inner.countP (·.isEmpty) == 1 && parts.length ≤ 9 &&
      (!first.isEmpty || keptHigh.isEmpty) && (!last.isEmpty || keptLow.isEmpty) &&
      keptHigh.length + keptLow.length ≤ 7 && (keptHigh ++ keptLow).all isHextet

/-- The text before a zone is an IPv6 address, and the zone has a name. -/
def isIpv6 (cs : List Char) : Bool :=
  match cs.splitOn '%' with
  | [address] => (ipv6Groups address).any areIpv6Groups
  | [address, zone] => !zone.isEmpty && (ipv6Groups address).any areIpv6Groups
  | _ => false

/-- `_is_ip`. -/
def isIp (text : String) : Bool :=
  (IPv4.parse text).isSome || (!text.toList.contains '/' && isIpv6 text.toList)

/-! ### The services of a declaration -/

/-- `_AS3_META_KEYS`. -/
def as3MetaKeys : List String :=
  ["class", "action", "persist", "schemaVersion", "id", "label", "remark", "updateMode",
    "historyLimit", "controls"]

/-- `_AS3_APP_META_KEYS`. -/
def as3AppMetaKeys : List String := ["class", "label", "remark", "constants", "serviceMain"]

/-- The classes of services that are translated. -/
inductive ServiceClass
  | http
  | https
  | tcp
  | udp
  deriving DecidableEq, Repr

/-- `_AS3_HTTP_CLASSES`, `_AS3_TCP_CLASSES` and `_AS3_UDP_CLASSES`. -/
def serviceClass? : Value → Option ServiceClass
  | .str "Service_HTTP" => some .http
  | .str "Service_HTTPS" => some .https
  | .str "Service_TCP" => some .tcp
  | .str "Service_UDP" => some .udp
  | _ => none

/-- `vs_class in (...)`: the classes are a set, so a value without a hash raises. -/
def readClass (v : Value) : Except Raised (Option ServiceClass) :=
  if v.hashable then .ok (serviceClass? v) else .error .typeError

structure As3Backend where
  service : Value
  port : Int

/-- What the walk gives. -/
structure As3Result where
  backends : List As3Backend := []
  hostnames : List String := []
  unmapped : List UnmappedEntry := []

def As3Result.append (a b : As3Result) : As3Result :=
  ⟨a.backends ++ b.backends, a.hostnames ++ b.hostnames, a.unmapped ++ b.unmapped⟩

def poolsInApp (app : Value) : List (String × Value) :=
  app.items.filter fun o ↦ o.2.isDict && (o.2.get "class").isText "Pool"

def addressOf (vaddr : Value) : Except Raised Value :=
  if vaddr.isStr then .ok vaddr
  else do
    let used ← vaddr.get? "use"
    return used.orElse (.str "")

section

variable (repr : Value → String)

def addressEntries (s : Source) (vaddr : Value) : Except Raised (List UnmappedEntry) := do
  let address ← addressOf vaddr
  let entry := s.unmapped "vip_address" ("virtualAddresses=" ++ repr address)
    ("BIG-IP VIP / IPAM address placeholder " ++
      "(0.0.0.0 or IPAM-managed). CIS rewrites this at deploy " ++
      "time; no real VIP known. Update DNS after migration.")
  if address.isText "0.0.0.0" || address.isText "" then return [entry]
  return if ← address.startsWith? "/" then [entry] else []

def iruleText (irule : Value) : Except Raised String :=
  if irule.isStr then .ok (irule.toText repr)
  else do
    let used ← irule.get? "use"
    return if used.truthy then used.toText repr else irule.toText repr

def as3IruleEntry (s : Source) (irule : Value) : Except Raised UnmappedEntry := do
  let text ← iruleText repr irule
  return s.unmapped "irule" text
    ("iRules are BIG-IP proprietary and have no Gateway API " ++
      "equivalent. Replicate logic using HTTPRoute filters or " ++
      "ExtensionRef policies.")

def as3PolicyEntries (s : Source) (vs : Value) : List UnmappedEntry :=
  ["policyWAF", "profileBotDefense", "policyFirewall"].flatMap fun key ↦
    let val := vs.get key
    if val.truthy then
      let kind : String × String × String :=
        if key = "policyFirewall" then ("F5BigFwPolicy", "k8s.f5net.com", "v1")
        else ("BNKSecPolicy", "gateway.k8s.f5net.com", "v1alpha1")
      [s.unmapped "security_policy" (key ++ "=" ++ repr val)
        ("Maps to BNK CRD kind '" ++ kind.1 ++ "' (apiVersion: " ++ kind.2.1 ++ "/" ++ kind.2.2 ++
          "). Create a " ++ kind.1 ++ " CR referencing this policy " ++
          "and attach it to the target Gateway or HTTPRoute.")]
    else []

def resolvePool (s : Source) (pools : List (String × Value)) (poolRef : Value) :
    Except Raised (Value ⊕ UnmappedEntry) :=
  match poolRef with
  | .str name =>
    if ['/'].isPrefixOf name.toList then
      .ok (.inr (s.unmapped "cross_tenant_pool_ref" name
        ("/Common or cross-tenant pool refs cannot be resolved " ++
          "without access to all tenant declarations. Update the " ++
          "backendRef to the migrated Service name.")))
    else .ok (.inl ((pools.lookup name).getD (.dict [])))
  | .dict _ =>
    match (poolRef.get "use").orElse (.str "") with
    | .str name =>
      if ['/'].isPrefixOf name.toList then
        .ok (.inr (s.unmapped "cross_tenant_pool_ref" name
          "/Common or cross-tenant pool refs cannot be resolved."))
      else .ok (.inl ((pools.lookup name).getD (.dict [])))
    | _ => .error .attributeError
  | _ => .ok (.inl (.dict []))

structure MembersResult where
  backend : Option Value := none
  port : Int := 80
  unmapped : List UnmappedEntry := []

def rawIpEntry (s : Source) (port ip : Value) : UnmappedEntry :=
  let shown := ip.toText repr ++ ":" ++ port.toText repr
  s.unmapped "raw_ip_pool_member" shown
    ("Pool member is a raw IP address (classic BIG-IP / " ++
      "static member), not a Kubernetes Service. No " ++
      "backendRef can be generated automatically. Create " ++
      "a Kubernetes Service/EndpointSlice pointing to " ++ shown ++ " and update the backendRef.")

def memberService (member : Value) : Value :=
  (member.get "serviceAddress").orElse (member.get "addressDiscovery")

def memberPort (member : Value) : Value :=
  ((member.get "servicePort").orElse (member.get "port")).orElse (.int 80)

/-- `isinstance(member_port, str) and not member_port.isdigit()`: the port is given by name. -/
def portNameOf : Value → Option String
  | .str text => if isDigitText text then none else some text
  | _ => none

def serviceMember (s : Source) (member : Value) : Except Raised MembersResult :=
  match portNameOf (memberPort member) with
  | some portName =>
    .ok { backend := some (memberService member)
          unmapped := [s.unmapped "port_by_name" portName
            ("Service port is referenced by name. HTTPRoute " ++
              "requires a numeric port. Resolve from Service spec.")] }
  | none => do
    let n ← (memberPort member).number
    return { backend := some (memberService member), port := n }

def readMembers (s : Source) : List Value → Except Raised MembersResult
  | [] => .ok {}
  | member :: members =>
    if !member.isDict then readMembers s members
    else if (member.get "serverAddresses").truthy then do
      let ips ← (member.get "serverAddresses").iterate
      return { unmapped := ips.map (rawIpEntry repr s (memberPort member)) }
    else if (memberService member).truthy then serviceMember s member
    else readMembers s members

/-- The hostnames of a service: its addresses that are texts and no IP addresses. -/
def addressHostnames (vaddrs : List Value) : List String :=
  vaddrs.filterMap fun vaddr ↦
    match vaddr with
    | .str address =>
      if address ≠ "" ∧ !("0.0".toList.isPrefixOf address.toList) ∧ !isIp address then some address
      else none
    | _ => none

def as3TlsEntries (s : Source) (vs : Value) : List UnmappedEntry :=
  ["clientTLS", "serverTLS"].flatMap fun key ↦
    let val := vs.get key
    if val.truthy then
      [s.unmapped "tls_profile_ref" (key ++ "=" ++ val.toText repr)
        ("BIG-IP-native TLS profile by name cannot be " ++
          "automatically mapped. Provide a Kubernetes Secret " ++
          "with the certificate and update the Gateway listener " ++
          "certificateRefs.")]
    else []

def layerFourEntry (s : Source) (vs : Value) (construct kind route : String) (service : Value)
    (port : Int) : UnmappedEntry :=
  let virtualPort := ((vs.get "virtualPort").orElse (.int 8080)).toText repr
  let backend := service.toText repr ++ ":" ++ toString port
  s.unmapped construct ("port=" ++ virtualPort ++ " backend=" ++ backend)
    ("AS3 " ++ kind ++ " maps to a " ++ route ++ " (gateway.networking.k8s.io/" ++
      "v1alpha2). Review and add a " ++ route ++ " manifest pointing " ++
      backend ++ " on listener port " ++ virtualPort ++ ".")

def finishService (s : Source) (cls : ServiceClass) (vs : Value) (vaddrs : List Value)
    (m : MembersResult) : As3Result :=
  match cls, m.backend with
  | .http, some service =>
    { backends := [⟨service, m.port⟩], hostnames := addressHostnames vaddrs }
  | .http, none => {}
  | .https, some service =>
    { backends := [⟨service, m.port⟩], hostnames := addressHostnames vaddrs
      unmapped := as3TlsEntries repr s vs }
  | .https, none => { unmapped := as3TlsEntries repr s vs }
  | .tcp, some service =>
    { unmapped := [layerFourEntry repr s vs "tcp_service" "Service_TCP" "TCPRoute" service m.port] }
  | .udp, some service =>
    { unmapped := [layerFourEntry repr s vs "udp_service" "Service_UDP" "UDPRoute" service m.port] }
  | _, none => {}

def as3Service (s : Source) (pools : List (String × Value)) (cls : ServiceClass) (vs : Value) :
    Except Raised As3Result := do
  let vaddrs ← ((vs.get "virtualAddresses").orElse (.list [])).iterate
  let addresses ← vaddrs.mapM (addressEntries repr s)
  let irules ← ((vs.get "iRules").orElse (.list [])).iterate
  let irules ← irules.mapM (as3IruleEntry repr s)
  let flagged := addresses.flatten ++ irules ++ as3PolicyEntries repr s vs
  let poolRef := vs.get "pool"
  match ← resolvePool s pools poolRef with
  | .inr entry => return { unmapped := flagged ++ [entry] }
  | .inl pool =>
    let members := (pool.get "members").orElse (.list [])
    let m ← readMembers repr s (← members.iterate)
    let noMembers :=
      if m.backend.isNone && !members.truthy then
        [s.unmapped "no_pool_members" ("pool=" ++ repr poolRef)
          "Pool has no members. Cannot generate a backendRef."]
      else []
    return As3Result.append { unmapped := flagged ++ m.unmapped ++ noMembers }
      (finishService repr s cls vs vaddrs m)

def serviceSource (s : Source) (tenantName appName vsName : String) : Source :=
  { s with name := s.name ++ "/" ++ (tenantName ++ "/" ++ appName ++ "/" ++ vsName) }

def as3Object (s : Source) (tenantName appName : String) (app : Value) (o : String × Value) :
    Except Raised As3Result :=
  if as3AppMetaKeys.contains o.1 || !o.2.isDict then .ok {}
  else do
    match ← readClass (o.2.get "class") with
    | none => return {}
    | some cls => as3Service repr (serviceSource s tenantName appName o.1) (poolsInApp app) cls o.2

def as3Application (s : Source) (tenantName appName : String) (app : Value) :
    Except Raised As3Result := do
  let results ← app.items.mapM (as3Object repr s tenantName appName app)
  return results.foldl As3Result.append {}

def as3Tenant (s : Source) (tenantName : String) (tenant : Value) : Except Raised As3Result := do
  let apps := tenant.items.filter fun a ↦
    !as3AppMetaKeys.contains a.1 && a.2.isDict && (a.2.get "class").isText "Application"
  let results ← apps.mapM fun a ↦ as3Application repr s tenantName a.1 a.2
  return results.foldl As3Result.append {}

def as3Adc (s : Source) (adc : Value) : Except Raised As3Result := do
  let tenants := adc.items.filter fun t ↦
    !as3MetaKeys.contains t.1 && t.2.isDict && (t.2.get "class").isText "Tenant"
  let results ← tenants.mapM fun t ↦ as3Tenant repr s t.1 t.2
  return results.foldl As3Result.append {}

def parseErrorEntry (s : Source) (detail reason : String) : UnmappedEntry :=
  s.unmapped "as3_parse_error" detail reason

def as3Envelope (s : Source) (declaration : Value) : Value ⊕ UnmappedEntry :=
  if !declaration.isDict then
    .inr (parseErrorEntry s "declaration is not a dict"
      "AS3 declaration must be a dict with class:AS3.")
  else
    let topClass := declaration.get "class"
    if topClass.isText "AS3" || topClass.isText "ADC" then
      let adc := if topClass.isText "AS3" then declaration.get "declaration" else declaration
      if adc.truthy && adc.isDict then .inl adc
      else
        .inr (parseErrorEntry s "empty ADC declaration"
          "AS3 declaration body is empty or missing. Nothing to translate.")
    else
      .inr (parseErrorEntry s ("class=" ++ repr topClass)
        ("AS3 declaration must have class 'AS3' or 'ADC'. " ++
          "This object cannot be translated."))

/-- `_as3_declaration_to_bnk`. -/
def as3DeclarationToBnk (s : Source) (declaration : Value) : Except Raised As3Result :=
  match as3Envelope repr s declaration with
  | .inr entry => .ok { unmapped := [entry] }
  | .inl adc => do
    let result ← as3Adc repr s adc
    return { result with hostnames := result.hostnames.foldl addHostname [] }

end

end BnkForge.Proxy
