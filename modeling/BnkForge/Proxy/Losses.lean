import BnkForge.Lib.ExceptResult
import BnkForge.Proxy.Cis

/-!
# What the translation loses

Every construct of the source is to be in the manifests or to be named by an entry. The constructs are
the paths, default backends and TLS secrets of Ingresses, the rules and backends of HTTPRoutes, the
services of AS3 declarations and the pools of VirtualServers.
-/

namespace BnkForge.Proxy

open Python ExceptResult List

/-! ### What is represented or named -/

/-- What is emitted: the rules of the route, the listeners of the gateway, which is in a namespace, and
the entries. -/
structure Emitted where
  ns : String
  rules : List RouteRule
  listeners : List Listener
  unmapped : List UnmappedEntry

def TranslationResult.emitted (t : TranslationResult) : Emitted :=
  ⟨t.gateway.ns, t.httproute.rules, t.gateway.listeners, t.unmapped⟩

def CisResult.emitted (t : CisResult) : Emitted :=
  ⟨t.gateway.ns, t.httproute.rules, t.gateway.listeners, t.unmapped⟩

def Emitted.Routes (m : Emitted) (type : MatchType) (value service : String) (port : Option Int) :
    Prop :=
  ∃ rule ∈ m.rules, .path type value ∈ rule.routeMatches ∧
    ∃ ref ∈ rule.backendRefs, ref.name = service ∧ ∀ n ∈ port, ref.port = n

/-- A hostname of a listener accepts a host; `*` stands for any text before the rest. -/
def acceptsHost (hostname host : String) : Bool :=
  match hostname.toList with
  | '*' :: rest => rest.isSuffixOf host.toList
  | _ => hostname == host

/-- The certificates of a listener of a gateway of the namespace `ns`. -/
def Listener.certificates (ns : String) (l : Listener) : List CertificateRef :=
  match l.tls with
  | none => []
  | some (.terminate refs) => refs
  | some (.copied raw) => (listOf (raw.get "certificateRefs")).filterMap fun c ↦
    match c.get "name", c.get "namespace" with
    | .str name, .str ns => some ⟨name, ns⟩
    | .str name, _ => some ⟨name, ns⟩
    | _, _ => none

def Listener.serves (ns : String) (cert : CertificateRef) (host : String) (l : Listener) : Bool :=
  (l.certificates ns).contains cert && l.hostname.all fun hostname ↦ acceptsHost hostname host

def Emitted.Serves (m : Emitted) (cert : CertificateRef) (host : String) : Prop :=
  ∃ l ∈ m.listeners, l.serves m.ns cert host = true

def ServiceBackend.service? (b : ServiceBackend) : Option String :=
  (nonEmpty? b.name).filter (· ≠ placeholderName)

def Emitted.CoversBackend (m : Emitted) (s : Source) (type : MatchType) (value : String)
    (b : ServiceBackend) : Prop :=
  (portByName b = none ∧ ∃ service ∈ b.service?, m.Routes type value service (nonZero? b.portNumber)) ∨
    ∃ portName ∈ portByName b, b.service?.isSome ∧ s.portByName portName ∈ m.unmapped

def Emitted.CoversPath (m : Emitted) (ing : Ingress) (p : IngressPath) : Prop :=
  match ingressPathTypeMap (pathTypeOf p) with
  | some type => m.CoversBackend ing.source type (pathValue p) p.backend
  | none => p.backend.service?.isSome ∧ ing.pathTypeEntry p ∈ m.unmapped

/-- An Ingress: its paths, its default backend, and each host of a TLS secret. -/
structure Emitted.CoversIngress (m : Emitted) (ing : Ingress) : Prop where
  path : ∀ r ∈ ing.rules, ∀ p ∈ r.paths, m.CoversPath ing p
  default : ∀ b ∈ ing.defaultBackend, m.CoversBackend ing.source .pathPrefix "/" b
  tls : ∀ entry ∈ ing.tls, ∀ secretName ∈ nonEmpty? entry.secretName, ∀ host ∈ entry.hosts,
    m.Serves ⟨secretName, ing.ns⟩ host

def IsCopyOf (rule : SourceRule) (copy : RouteRule) : Prop :=
  copy.routeMatches = rule.routeMatches.map .copied

def BackendRef.IsLike (ref : BackendRef) (br : SourceRef) : Prop :=
  ref.name = br.name.getD "" ∧ (∀ n ∈ br.port, ref.port = n) ∧ ref.ns = br.ns ∧
    ref.weight.getD 1 = br.weight.getD 1

/-- An HTTPRoute: its rules, and their backends, which are represented or named by their group. -/
structure Emitted.CoversRoute (m : Emitted) (route : SourceRoute) : Prop where
  rule : ∀ rule ∈ route.rules, ∃ copy ∈ m.rules, IsCopyOf rule copy
  ref : ∀ rule ∈ route.rules, ∀ br ∈ rule.backendRefs,
    (∃ copy ∈ m.rules, IsCopyOf rule copy ∧ ∃ ref ∈ copy.backendRefs, ref.IsLike br) ∨
      isExtension br = true ∧ extensionEntry route br ∈ m.unmapped

/-- Nothing of what a request has is lost. -/
structure TranslateRequest.Covered (r : TranslateRequest) (m : Emitted) : Prop where
  ingresses : ∀ ing ∈ r.sourceIngresses, m.CoversIngress ing
  httproutes : ∀ route ∈ r.sourceHttproutes, m.CoversRoute route

/-! ### Where nothing is lost -/

/-- An Ingress of which nothing is passed over: its paths and its default backend have services; the
port of the default backend is a number, or a path names this port too; and for each secret the first
listener with its shortened name has this secret and accepts the host. -/
structure IngressKept (ingresses : List Ingress) (listeners : List Listener) (ing : Ingress) :
    Prop where
  path : ∀ r ∈ ing.rules, ∀ p ∈ r.paths, p.backend.service?.isSome = true
  default : ∀ b ∈ ing.defaultBackend, b.service?.isSome = true ∧
    ∀ portName ∈ portByName b, ∃ other ∈ ingresses, other.source = ing.source ∧
      ∃ p ∈ other.services, portByName p.1.backend = some portName
  tls : ∀ entry ∈ ing.tls, ∀ secretName ∈ nonEmpty? entry.secretName, ∀ host ∈ entry.hosts,
    ∃ l, listeners.find? (Listener.hasKey ("https-" ++ takeText 20 secretName) 443) = some l ∧
      ∀ ns, l.serves ns ⟨secretName, ing.ns⟩ host = true

/-- An Ingress has nothing that a translation of HTTPRoutes could lose. -/
structure IngressBare (ns : String) (listeners : List Listener) (ing : Ingress) : Prop where
  path : ∀ r ∈ ing.rules, r.paths = []
  default : ing.defaultBackend = none
  tls : ∀ entry ∈ ing.tls, ∀ secretName ∈ nonEmpty? entry.secretName, ∀ host ∈ entry.hosts,
    ∃ l ∈ buildListeners listeners, l.serves ns ⟨secretName, ing.ns⟩ host = true

/-- Nothing of a request is passed over: what it has is of the kind that is read, and the backends of
HTTPRoutes have no weights. -/
def TranslateRequest.NothingSkipped (r : TranslateRequest) : Prop :=
  if isIngressRequest r then
    (∀ ing ∈ r.sourceIngresses,
      IngressKept r.sourceIngresses (r.sourceIngresses.flatMap (·.listeners)) ing) ∧
    ∀ route ∈ r.sourceHttproutes, route.rules = []
  else
    (∀ ing ∈ r.sourceIngresses, IngressBare
      (orDefault (routesNamespace r.targetNamespace r.sourceHttproutes))
      (if r.sourceHttproutes.isEmpty then [] else passListeners r.sourceGateways) ing) ∧
    ∀ route ∈ r.sourceHttproutes, ∀ rule ∈ route.rules, ∀ br ∈ rule.backendRefs,
      isExtension br = true ∨ br.weight.getD 1 = 1

/-! ### Ingresses -/

theorem ServiceBackend.exists_name_of_service {b : ServiceBackend} (h : b.service?.isSome = true) :
    ∃ service, b.service? = some service ∧ nonEmpty? b.name = some service := by
  obtain ⟨service, hservice⟩ := Option.isSome_iff_exists.mp h
  exact ⟨service, hservice, (Option.filter_eq_some_iff.mp hservice).1⟩

theorem mem_services {ing : Ingress} {r : IngressRule} (hr : r ∈ ing.rules) {p : IngressPath}
    (hp : p ∈ r.paths) {service : String} (h : nonEmpty? p.backend.name = some service) :
    (p, service) ∈ ing.services := by
  refine mem_filterMap.mpr ⟨p, mem_flatMap.mpr ⟨r, hr, hp⟩, ?_⟩
  rw [h]
  rfl

theorem port_eq_portOr80 {b : ServiceBackend} {n : Int} (h : n ∈ nonZero? b.portNumber) :
    portOr80 b = n := by
  rw [portOr80, Option.mem_def.mp h, Option.getD_some]

section Ingresses

variable {m : Emitted} {proxyType gw : String} {ing : Ingress}
  (hrules : ∀ rule ∈ ing.routeRules gw, rule ∈ m.rules)
  (hflags : ∀ e ∈ ing.flags proxyType gw, e ∈ m.unmapped)

include hflags

theorem flag_mem {p : IngressPath × String} (hp : p ∈ ing.services) {e : UnmappedEntry}
    (he : e ∈ pathFlags ing p.1 p.2 gw) : e ∈ m.unmapped :=
  hflags e (mem_append_right _ (mem_flatMap.mpr ⟨p, hp, he⟩))

theorem portByName_mem {p : IngressPath × String} (hp : p ∈ ing.services) {portName : String}
    (h : portByName p.1.backend = some portName) : ing.source.portByName portName ∈ m.unmapped := by
  refine flag_mem hflags hp (mem_append_left _ (mem_append_right _ ?_))
  rw [h]
  exact mem_singleton_self _

include hrules

theorem coversPath_of_service {r : IngressRule} (hr : r ∈ ing.rules) {p : IngressPath}
    (hp : p ∈ r.paths) (h : p.backend.service?.isSome = true) : m.CoversPath ing p := by
  obtain ⟨service, hservice, hname⟩ := p.backend.exists_name_of_service h
  have hmem := mem_services hr hp hname
  unfold Emitted.CoversPath
  cases htype : ingressPathTypeMap (pathTypeOf p) with
  | none =>
    refine ⟨h, flag_mem hflags hmem (mem_append_right _ ?_)⟩
    rw [htype]
    exact mem_singleton_self _
  | some type =>
    cases hport : portByName p.backend with
    | some portName => exact .inr ⟨portName, hport, h, portByName_mem hflags hmem hport⟩
    | none =>
      refine .inl ⟨hport, service, hservice, pathRule ing p service gw, ?_, ?_⟩
      · exact hrules _ (mem_append_left _ (mem_map.mpr ⟨_, hmem, rfl⟩))
      · rw [pathRule, htype]
        exact ⟨mem_singleton_self _, _, mem_singleton_self _, rfl,
          fun n hn ↦ port_eq_portOr80 hn⟩

end Ingresses

theorem service_of_coversBackend {m : Emitted} {s : Source} {type : MatchType} {value : String}
    {b : ServiceBackend} (h : m.CoversBackend s type value b) : b.service?.isSome = true := by
  obtain ⟨-, service, hservice, -⟩ | ⟨-, -, hservice, -⟩ := h
  · exact Option.isSome_of_mem hservice
  · exact hservice

theorem coversDefault_of_service {m : Emitted} {gw : String} {ing : Ingress}
    (hrules : ∀ rule ∈ ing.routeRules gw, rule ∈ m.rules) {b : ServiceBackend}
    (hb : ing.defaultBackend = some b) (hservice : b.service?.isSome = true)
    (hport : ∀ portName ∈ portByName b, ing.source.portByName portName ∈ m.unmapped) :
    m.CoversBackend ing.source .pathPrefix "/" b := by
  cases hnamed : portByName b with
  | some portName => exact .inr ⟨portName, hnamed, hservice, hport portName hnamed⟩
  | none =>
    obtain ⟨service, hservice, hname⟩ := b.exists_name_of_service hservice
    refine .inl ⟨hnamed, service, hservice, defaultRule b service, ?_, ?_⟩
    · refine hrules _ (mem_append_right _ ?_)
      rw [Ingress.defaultRules, Ingress.fallback, hb, Option.getD_some, hname]
      exact mem_singleton_self _
    · exact ⟨mem_singleton_self _, _, mem_singleton_self _, rfl,
        fun n hn ↦ port_eq_portOr80 hn⟩

/-! ### Listeners of secrets -/

def Listener.NamedBySecret (l : Listener) : Prop :=
  match l.tls with
  | none => True
  | some (.terminate refs) =>
    ∀ cert ∈ refs, l.hasKey ("https-" ++ takeText 20 cert.name) 443 = true
  | some (.copied _) => False

namespace Listener.NamedBySecret

variable {l : Listener} (h : l.NamedBySecret)

include h

theorem certificates_eq (ns ns' : String) : l.certificates ns = l.certificates ns' := by
  unfold Listener.NamedBySecret at h
  unfold Listener.certificates
  split at h
  · rfl
  · rfl
  · exact h.elim

theorem hasKey {ns : String} {cert : CertificateRef} (hcert : cert ∈ l.certificates ns) :
    l.hasKey ("https-" ++ takeText 20 cert.name) 443 = true := by
  unfold Listener.NamedBySecret at h
  unfold Listener.certificates at hcert
  split at h
  · next htls =>
    rw [htls] at hcert
    cases hcert
  · next refs htls =>
    rw [htls] at hcert
    exact h cert hcert
  · exact h.elim

end Listener.NamedBySecret

theorem Listener.mem_certificates_of_serves {l : Listener} {ns : String} {cert : CertificateRef}
    {host : String} (h : l.serves ns cert host = true) : cert ∈ l.certificates ns := by
  rw [Listener.serves, Bool.and_eq_true] at h
  simpa using h.1

theorem serves_buildListeners_iff {ls : List Listener} (hls : ∀ l ∈ ls, l.NamedBySecret)
    (ns : String) (cert : CertificateRef) (host : String) :
    (∃ l ∈ buildListeners ls, l.serves ns cert host = true) ↔
      ∃ l, ls.find? (Listener.hasKey ("https-" ++ takeText 20 cert.name) 443) = some l ∧
        ∀ ns, l.serves ns cert host = true := by
  constructor
  · rintro ⟨l, hl, hserves⟩
    have hcert := Listener.mem_certificates_of_serves hserves
    obtain rfl | hl := mem_cons.mp hl
    · cases hcert
    · have hfind := mem_addListener.mp hl
      have hnamed := hls l (mem_of_find?_eq_some hfind)
      obtain ⟨hname, hport⟩ := Listener.hasKey_iff.mp (hnamed.hasKey hcert)
      rw [hname, hport] at hfind
      refine ⟨l, hfind, fun ns' ↦ ?_⟩
      rw [Listener.serves, hnamed.certificates_eq ns' ns]
      exact hserves
  · rintro ⟨l, hfind, hserves⟩
    obtain ⟨hname, hport⟩ := Listener.hasKey_iff.mp (find?_some hfind)
    refine ⟨l, mem_cons_of_mem _ (mem_addListener.mpr ?_), hserves ns⟩
    rw [hname, hport]
    exact hfind

theorem namedBySecret_of_mem_listeners {ing : Ingress} {l : Listener} (h : l ∈ ing.listeners) :
    l.NamedBySecret := by
  obtain ⟨entry, -, hl⟩ := mem_filterMap.mp h
  obtain ⟨secretName, -, rfl⟩ := Option.map_eq_some_iff.mp hl
  intro cert hcert
  rw [mem_singleton.mp hcert]
  simp [Listener.hasKey, tlsListener]

/-! ### Entries -/

theorem Source.portByName_inj {s s' : Source} {portName portName' : String}
    (h : s.portByName portName = s'.portByName portName') : s = s' ∧ portName = portName' := by
  obtain ⟨kind, name, ns⟩ := s
  obtain ⟨kind', name', ns'⟩ := s'
  simp only [Source.portByName, Source.unmapped, UnmappedEntry.mk.injEq] at h
  obtain ⟨rfl, rfl, rfl, -, rfl, -⟩ := h
  exact ⟨rfl, rfl⟩

theorem portByName_mem_flags_iff {proxyType gw : String} {ing : Ingress} {s : Source}
    {portName : String} :
    s.portByName portName ∈ ing.flags proxyType gw ↔
      ing.source = s ∧ ∃ p ∈ ing.services, portByName p.1.backend = some portName := by
  rw [Ingress.flags, mem_append, mem_flatMap]
  constructor
  · rintro (h | ⟨p, hp, h⟩)
    · obtain ⟨a, -, ha⟩ := mem_filterMap.mp h
      obtain ⟨reason, -, heq⟩ := Option.map_eq_some_iff.mp ha
      exact absurd (congrArg UnmappedEntry.construct heq)
        (show "annotation" ≠ "port_by_name" by decide)
    · rw [pathFlags, mem_append, mem_append] at h
      obtain (h | h) | h := h
      · split at h
        · rw [mem_singleton] at h
          exact absurd (congrArg UnmappedEntry.construct h)
            (show "port_by_name" ≠ "cross_namespace_backend" by decide)
        · cases h
      · rw [Option.mem_toList] at h
        obtain ⟨portName', hport, heq⟩ := Option.map_eq_some_iff.mp h
        obtain ⟨hs, rfl⟩ := Source.portByName_inj heq
        exact ⟨hs, p, hp, hport⟩
      · split at h
        · rw [mem_singleton] at h
          exact absurd (congrArg UnmappedEntry.construct h)
            (show "port_by_name" ≠ "path_type" by decide)
        · cases h
  · rintro ⟨rfl, p, hp, hport⟩
    refine .inr ⟨p, hp, mem_append_left _ (mem_append_right _ ?_)⟩
    rw [hport]
    exact mem_singleton_self _

/-! ### A request with Ingresses -/

section IngressRequest

variable {m : Emitted} (proxyType gw : String) {ingresses : List Ingress} {listeners : List Listener}

def ServesFirst (m : Emitted) (listeners : List Listener) (ing : Ingress) : Prop :=
  ∀ entry ∈ ing.tls, ∀ secretName ∈ nonEmpty? entry.secretName, ∀ host,
    m.Serves ⟨secretName, ing.ns⟩ host ↔
      ∃ l, listeners.find? (Listener.hasKey ("https-" ++ takeText 20 secretName) 443) = some l ∧
        ∀ ns, l.serves ns ⟨secretName, ing.ns⟩ host = true

theorem coversIngress_of_kept
    (hrules : ∀ ing ∈ ingresses, ∀ rule ∈ ing.routeRules gw, rule ∈ m.rules)
    (hflags : ∀ ing ∈ ingresses, ∀ e ∈ ing.flags proxyType gw, e ∈ m.unmapped)
    {ing : Ingress} (hing : ing ∈ ingresses) (hserves : ServesFirst m listeners ing)
    (h : IngressKept ingresses listeners ing) : m.CoversIngress ing := by
  refine ⟨fun r hr p hp ↦ ?_, fun b hb ↦ ?_, fun entry hentry secretName hsecret host hhost ↦ ?_⟩
  · exact coversPath_of_service (hrules ing hing) (hflags ing hing) hr hp (h.path r hr p hp)
  · refine coversDefault_of_service (hrules ing hing) hb (h.default b hb).1 fun portName hport ↦ ?_
    obtain ⟨other, hother, hpath⟩ := (h.default b hb).2 portName hport
    exact hflags other hother _ (portByName_mem_flags_iff.mpr hpath)
  · exact (hserves entry hentry secretName hsecret host).mpr
      (h.tls entry hentry secretName hsecret host hhost)

theorem kept_of_coversIngress {ing : Ingress}
    (hports : ∀ portName, ing.source.portByName portName ∈ m.unmapped →
      ∃ other ∈ ingresses, ing.source.portByName portName ∈ other.flags proxyType gw)
    (hserves : ServesFirst m listeners ing) (h : m.CoversIngress ing) :
    IngressKept ingresses listeners ing := by
  refine ⟨fun r hr p hp ↦ ?_, fun b hb ↦ ?_, fun entry hentry secretName hsecret host hhost ↦ ?_⟩
  · have hpath := h.path r hr p hp
    unfold Emitted.CoversPath at hpath
    split at hpath
    · exact service_of_coversBackend hpath
    · exact hpath.1
  · refine ⟨service_of_coversBackend (h.default b hb), fun portName hport ↦ ?_⟩
    obtain ⟨hnone, -⟩ | ⟨portName', hport', -, hmem⟩ := h.default b hb
    · rw [hnone] at hport
      cases hport
    · cases Option.mem_unique hport hport'
      obtain ⟨other, hother, hflag⟩ := hports portName hmem
      exact ⟨other, hother, portByName_mem_flags_iff.mp hflag⟩
  · exact (hserves entry hentry secretName hsecret host).mp
      (h.tls entry hentry secretName hsecret host hhost)

end IngressRequest

def TranslateRequest.ingressRules (r : TranslateRequest) : List RouteRule :=
  r.sourceIngresses.flatMap fun ing ↦
    ing.routeRules ((ingressNamespace r.targetNamespace r.sourceIngresses).getD "")

def ingressEmitted (r : TranslateRequest) : Emitted :=
  { ns := orDefault (ingressNamespace r.targetNamespace r.sourceIngresses)
    rules := if r.ingressRules.isEmpty then [placeholderRule] else r.ingressRules
    listeners := buildListeners (r.sourceIngresses.flatMap (·.listeners))
    unmapped := (r.sourceIngresses.flatMap fun ing ↦
      ing.flags r.proxyType ((ingressNamespace r.targetNamespace r.sourceIngresses).getD "")) ++
        if r.ingressRules.isEmpty then [noRulesEntry] else [] }

theorem emitted_of_ingresses (showRefs : List SourceRef → String) {r : TranslateRequest}
    (h : isIngressRequest r = true) : (translateToBnk showRefs r).emitted = ingressEmitted r := by
  simp only [TranslationResult.emitted, translateToBnk, translateSources, if_pos h,
    ingressToHttproute, collectIngresses_eq, buildHttproute]
  rfl

theorem mem_or_placeholder {rules : List RouteRule} {rule : RouteRule} (h : rule ∈ rules) :
    rule ∈ if rules.isEmpty then [placeholderRule] else rules := by
  rw [if_neg]
  · exact h
  · rw [List.isEmpty_iff]
    exact ne_nil_of_mem h

theorem routeMatches_of_routeRules {ing : Ingress} {gw : String} {rule : RouteRule}
    (h : rule ∈ ing.routeRules gw) : ∃ type value, rule.routeMatches = [.path type value] := by
  rw [Ingress.routeRules, mem_append] at h
  obtain h | h := h
  · obtain ⟨p, -, rfl⟩ := mem_map.mp h
    exact ⟨_, _, rfl⟩
  · rw [Ingress.defaultRules, Option.mem_toList] at h
    obtain ⟨name, -, rfl⟩ := Option.map_eq_some_iff.mp h
    exact ⟨_, _, rfl⟩

theorem not_isCopyOf {rule : SourceRule} {copy : RouteRule} {type : MatchType} {value : String}
    (h : copy.routeMatches = [.path type value]) : ¬ IsCopyOf rule copy := by
  intro hcopy
  rw [IsCopyOf, h] at hcopy
  cases hmatches : rule.routeMatches with
  | nil =>
    rw [hmatches] at hcopy
    cases hcopy
  | cons raw rest =>
    rw [hmatches] at hcopy
    cases hcopy

theorem ingressEmitted_servesFirst (r : TranslateRequest) (ing : Ingress) :
    ServesFirst (ingressEmitted r) (r.sourceIngresses.flatMap (·.listeners)) ing := by
  intro entry _ secretName _ host
  refine serves_buildListeners_iff (fun l hl ↦ ?_) _ ⟨secretName, ing.ns⟩ host
  obtain ⟨other, -, hl⟩ := mem_flatMap.mp hl
  exact namedBySecret_of_mem_listeners hl

theorem ingressEmitted_coversIngress_iff {r : TranslateRequest} {ing : Ingress}
    (hing : ing ∈ r.sourceIngresses) :
    (ingressEmitted r).CoversIngress ing ↔
      IngressKept r.sourceIngresses (r.sourceIngresses.flatMap (·.listeners)) ing := by
  constructor
  · refine kept_of_coversIngress r.proxyType
      ((ingressNamespace r.targetNamespace r.sourceIngresses).getD "") (fun portName hmem ↦ ?_)
      (ingressEmitted_servesFirst r ing)
    obtain hmem | hmem := mem_append.mp hmem
    · exact mem_flatMap.mp hmem
    · split at hmem
      · exact absurd (congrArg UnmappedEntry.construct (mem_singleton.mp hmem))
          (show "port_by_name" ≠ "no_rules" by decide)
      · cases hmem
  · refine coversIngress_of_kept r.proxyType
      ((ingressNamespace r.targetNamespace r.sourceIngresses).getD "")
      (fun ing hing rule hrule ↦ ?_) (fun ing hing e he ↦ ?_) hing (ingressEmitted_servesFirst r ing)
    · exact mem_or_placeholder (mem_flatMap.mpr ⟨ing, hing, hrule⟩)
    · exact mem_append_left _ (mem_flatMap.mpr ⟨ing, hing, he⟩)

theorem ingressEmitted_not_isCopyOf {r : TranslateRequest} {rule : SourceRule} {copy : RouteRule}
    (h : copy ∈ (ingressEmitted r).rules) : ¬ IsCopyOf rule copy := by
  simp only [ingressEmitted] at h
  split at h
  · rw [mem_singleton.mp h]
    exact not_isCopyOf rfl
  · obtain ⟨ing, -, hrule⟩ := mem_flatMap.mp h
    obtain ⟨type, value, hmatches⟩ := routeMatches_of_routeRules hrule
    exact not_isCopyOf hmatches

theorem ingressRequest_covered_iff (showRefs : List SourceRef → String) {r : TranslateRequest}
    (h : isIngressRequest r = true) :
    r.Covered (translateToBnk showRefs r).emitted ↔ r.NothingSkipped := by
  rw [emitted_of_ingresses showRefs h, TranslateRequest.NothingSkipped, if_pos h]
  constructor
  · intro hcovered
    refine ⟨fun ing hing ↦ (ingressEmitted_coversIngress_iff hing).mp (hcovered.ingresses ing hing),
      fun route hroute ↦ ?_⟩
    rw [eq_nil_iff_forall_not_mem]
    intro rule hrule
    obtain ⟨copy, hmem, hcopy⟩ := (hcovered.httproutes route hroute).rule rule hrule
    exact ingressEmitted_not_isCopyOf hmem hcopy
  · rintro ⟨hkept, hrules⟩
    refine ⟨fun ing hing ↦ (ingressEmitted_coversIngress_iff hing).mpr (hkept ing hing),
      fun route hroute ↦ ?_⟩
    constructor <;> rw [hrules route hroute] <;> nofun

/-! ### A request with HTTPRoutes -/

section Passthrough

variable (showRefs : List SourceRef → String)

def TranslateRequest.passRules (r : TranslateRequest) : List RouteRule :=
  r.sourceHttproutes.flatMap fun route ↦ route.rules.map fun rule ↦ (passRule showRefs route rule).1

def passEmitted (r : TranslateRequest) : Emitted :=
  { ns := orDefault (routesNamespace r.targetNamespace r.sourceHttproutes)
    rules := if (r.passRules showRefs).isEmpty then [placeholderRule] else r.passRules showRefs
    listeners := buildListeners
      (if r.sourceHttproutes.isEmpty then [] else passListeners r.sourceGateways)
    unmapped := if r.sourceHttproutes.isEmpty then [noRoutesEntry]
      else r.sourceHttproutes.flatMap fun route ↦
        route.rules.flatMap fun rule ↦ (passRule showRefs route rule).2 }

theorem emitted_of_httproutes {r : TranslateRequest} (h : isIngressRequest r = false) :
    (translateToBnk showRefs r).emitted = passEmitted showRefs r := by
  have hkind : ¬ isIngressRequest r = true := by simp [h]
  cases hroutes : r.sourceHttproutes with
  | nil =>
    simp [TranslationResult.emitted, translateToBnk, translateSources, hkind, hroutes,
      httproutePassthrough, buildHttproute, routesNamespace, buildListeners, passEmitted,
      TranslateRequest.passRules]
  | cons route routes =>
    simp only [TranslationResult.emitted, translateToBnk, translateSources, if_neg hkind, hroutes,
      httproutePassthrough, isEmpty_cons, Bool.false_eq_true, if_false, foldl_passRoute,
      buildHttproute, nil_append, passEmitted, TranslateRequest.passRules]

variable {showRefs}

theorem path_not_mem_passRule {route : SourceRoute} {rule : SourceRule} {type : MatchType}
    {value : String} : .path type value ∉ (passRule showRefs route rule).1.routeMatches := by
  intro h
  obtain ⟨raw, -, hraw⟩ := mem_map.mp h
  cases hraw

theorem weight_of_passRule {route : SourceRoute} {rule : SourceRule} {ref : BackendRef}
    (h : ref ∈ (passRule showRefs route rule).1.backendRefs) : ref.weight = none := by
  simp only [passRule] at h
  split at h
  · rw [mem_singleton.mp h]
  · obtain ⟨br, -, rfl⟩ := mem_map.mp h
    rfl

theorem construct_of_passRule {route : SourceRoute} {rule : SourceRule} {e : UnmappedEntry}
    (h : e ∈ (passRule showRefs route rule).2) :
    e.construct = "extensionRef" ∨ e.construct = "all_backends_unmapped" ∨ e.construct = "filter" := by
  simp only [passRule, mem_append] at h
  obtain (h | h) | h := h
  · obtain ⟨br, -, rfl⟩ := mem_map.mp h
    exact .inl rfl
  · split at h
    · rw [mem_singleton.mp h]
      exact .inr (.inl rfl)
    · cases h
  · obtain ⟨f, -, rfl⟩ := mem_map.mp h
    exact .inr (.inr rfl)

theorem copyRef_mem_passRule {route : SourceRoute} {rule : SourceRule} {br : SourceRef}
    (hbr : br ∈ rule.backendRefs) (hcore : isExtension br = false) :
    copyRef br ∈ (passRule showRefs route rule).1.backendRefs := by
  have hkept : br ∈ rule.kept := mem_filter.mpr ⟨hbr, by simp [hcore]⟩
  simp only [passRule]
  rw [if_neg]
  · exact mem_map_of_mem hkept
  · simp [ne_nil_of_mem hkept]

theorem passEmitted_rules {r : TranslateRequest} {rule : RouteRule}
    (h : rule ∈ (passEmitted showRefs r).rules) :
    rule = placeholderRule ∨ ∃ route source, rule = (passRule showRefs route source).1 := by
  simp only [passEmitted] at h
  split at h
  · exact .inl (mem_singleton.mp h)
  · obtain ⟨route, -, hrule⟩ := mem_flatMap.mp h
    obtain ⟨source, -, rfl⟩ := mem_map.mp hrule
    exact .inr ⟨route, source, rfl⟩

theorem passEmitted_construct {r : TranslateRequest} {e : UnmappedEntry}
    (h : e ∈ (passEmitted showRefs r).unmapped) :
    e.construct ≠ "port_by_name" ∧ e.construct ≠ "path_type" := by
  simp only [passEmitted] at h
  split at h
  · rw [mem_singleton.mp h]
    decide
  · obtain ⟨route, -, he⟩ := mem_flatMap.mp h
    obtain ⟨rule, -, he⟩ := mem_flatMap.mp he
    obtain he | he | he := construct_of_passRule he <;> rw [he] <;> decide

theorem passEmitted_not_coversBackend {r : TranslateRequest} {s : Source} {type : MatchType}
    {value : String} {b : ServiceBackend} :
    ¬ (passEmitted showRefs r).CoversBackend s type value b := by
  rintro (⟨-, service, hservice, rule, hrule, hpath, ref, href, rfl, -⟩ | ⟨portName, -, -, hmem⟩)
  · obtain rfl | ⟨route, source, rfl⟩ := passEmitted_rules hrule
    · rw [mem_singleton.mp href] at hservice
      exact absurd rfl (of_decide_eq_true (Option.filter_eq_some_iff.mp hservice).2)
    · exact path_not_mem_passRule hpath
  · exact (passEmitted_construct hmem).1 rfl

theorem passEmitted_coversIngress_iff {r : TranslateRequest} {ing : Ingress} :
    (passEmitted showRefs r).CoversIngress ing ↔
      IngressBare (passEmitted showRefs r).ns
        (if r.sourceHttproutes.isEmpty then [] else passListeners r.sourceGateways) ing := by
  constructor
  · intro h
    refine ⟨fun rule hrule ↦ ?_, ?_, h.tls⟩
    · rw [eq_nil_iff_forall_not_mem]
      intro p hp
      have hpath := h.path rule hrule p hp
      unfold Emitted.CoversPath at hpath
      split at hpath
      · exact passEmitted_not_coversBackend hpath
      · exact (passEmitted_construct hpath.2).2 rfl
    · rw [Option.eq_none_iff_forall_not_mem]
      exact fun b hb ↦ passEmitted_not_coversBackend (h.default b hb)
  · intro h
    refine ⟨fun rule hrule ↦ ?_, ?_, h.tls⟩
    · rw [h.path rule hrule]
      nofun
    · rw [h.default]
      nofun

theorem passEmitted_coversRoute_iff {r : TranslateRequest} {route : SourceRoute}
    (hroute : route ∈ r.sourceHttproutes) :
    (passEmitted showRefs r).CoversRoute route ↔
      ∀ rule ∈ route.rules, ∀ br ∈ rule.backendRefs,
        isExtension br = true ∨ br.weight.getD 1 = 1 := by
  constructor
  · intro h rule hrule br hbr
    obtain ⟨copy, hcopy, -, ref, href, -, -, -, hweight⟩ | ⟨hext, -⟩ := h.ref rule hrule br hbr
    · right
      have hnone : ref.weight = none := by
        obtain rfl | ⟨route', source, rfl⟩ := passEmitted_rules hcopy
        · rw [mem_singleton.mp href]
        · exact weight_of_passRule href
      rw [← hweight, hnone, Option.getD_none]
    · exact .inl hext
  · intro h
    have hcopy : ∀ rule ∈ route.rules,
        (passRule showRefs route rule).1 ∈ (passEmitted showRefs r).rules := fun rule hrule ↦
      mem_or_placeholder (mem_flatMap.mpr ⟨route, hroute, mem_map_of_mem hrule⟩)
    refine ⟨fun rule hrule ↦ ⟨_, hcopy rule hrule, rfl⟩, fun rule hrule br hbr ↦ ?_⟩
    cases hext : isExtension br with
    | true =>
      refine .inr ⟨rfl, ?_⟩
      simp only [passEmitted]
      rw [if_neg (by simp [ne_nil_of_mem hroute])]
      refine mem_flatMap.mpr ⟨route, hroute, mem_flatMap.mpr ⟨rule, hrule, ?_⟩⟩
      simp only [passRule, append_assoc]
      exact mem_append_left _ (mem_map_of_mem (mem_filter.mpr ⟨hbr, hext⟩))
    | false =>
      refine .inl ⟨_, hcopy rule hrule, rfl, _, copyRef_mem_passRule hbr hext, rfl, ?_, rfl, ?_⟩
      · intro n hn
        rw [copyRef, Option.mem_def.mp hn, Option.getD_some]
      · exact ((h rule hrule br hbr).resolve_left (by simp [hext])).symm

end Passthrough

theorem httprouteRequest_covered_iff (showRefs : List SourceRef → String) {r : TranslateRequest}
    (h : isIngressRequest r = false) :
    r.Covered (translateToBnk showRefs r).emitted ↔ r.NothingSkipped := by
  rw [emitted_of_httproutes showRefs h, TranslateRequest.NothingSkipped, if_neg (by simp [h])]
  constructor
  · exact fun hcovered ↦
      ⟨fun ing hing ↦ passEmitted_coversIngress_iff.mp (hcovered.ingresses ing hing),
        fun route hroute ↦ (passEmitted_coversRoute_iff hroute).mp (hcovered.httproutes route hroute)⟩
  · exact fun hkept ↦
      ⟨fun ing hing ↦ passEmitted_coversIngress_iff.mpr (hkept.1 ing hing),
        fun route hroute ↦ (passEmitted_coversRoute_iff hroute).mpr (hkept.2 route hroute)⟩

theorem translateToBnk_covered_iff (showRefs : List SourceRef → String) (r : TranslateRequest) :
    r.Covered (translateToBnk showRefs r).emitted ↔ r.NothingSkipped := by
  cases h : isIngressRequest r with
  | true => exact ingressRequest_covered_iff showRefs h
  | false => exact httprouteRequest_covered_iff showRefs h

end BnkForge.Proxy
