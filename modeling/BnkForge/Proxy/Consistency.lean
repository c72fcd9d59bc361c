import BnkForge.Lib.ExceptResult
import BnkForge.Proxy.Cis

/-!
# Gateways and the routes that refer to them

The listeners of a gateway are collected from the source objects, and kept apart by name and port
(`backend/services/proxy_translate_service.py:543–569`). The TCPRoutes and UDPRoutes are written by a
pass of their own, which names a listener after its port
(`backend/services/proxy_translate_cis_service.py:1649–1694`).
-/

namespace BnkForge.Proxy

open Python ExceptResult List

/-! ### Consistency -/

def TcpUdpRoute.protocol (route : TcpUdpRoute) : String :=
  if route.kind = "TCPRoute" then "TCP" else "UDP"

/-- The route refers to the gateway and to a listener that the gateway has. -/
structure TcpUdpRoute.RefersTo (route : TcpUdpRoute) (g : Gateway) : Prop where
  name : route.gatewayName = g.name
  ns : route.gatewayNamespace = g.ns
  listener : ∃ l ∈ g.listeners, l.name = route.sectionName ∧ l.protocol = route.protocol

/-- The listeners of the gateway have names of their own, and all routes refer to it. -/
structure Consistent (g : Gateway) (http : HttpRoute) (layerFour : List TcpUdpRoute) : Prop where
  distinct : (g.listeners.map (·.name)).Nodup
  name : http.gatewayName = g.name
  ns : http.gatewayNamespace = g.ns
  layerFour : ∀ route ∈ layerFour, route.RefersTo g

def SourceListener.isTakenOver (l : SourceListener) : Bool :=
  l.protocol = some "HTTPS" && l.tls.any (·.truthy)

/-- Of the listeners that are taken over none is called `http`, and two of one name have one port. -/
def ListenersApart (gateways : List SourceGateway) : Prop :=
  ∀ l ∈ gateways.flatMap (·.listeners), l.isTakenOver = true →
    l.name.getD "https" ≠ "http" ∧
    ∀ l' ∈ gateways.flatMap (·.listeners), l'.isTakenOver = true →
      l.name.getD "https" = l'.name.getD "https" → l.port.getD 443 = l'.port.getD 443

/-- The source listeners do not get into each other's way. -/
def TranslateRequest.ListenersApart (r : TranslateRequest) : Prop :=
  isIngressRequest r = true ∨ r.sourceHttproutes = [] ∨ Proxy.ListenersApart r.sourceGateways

def TransportServer.IsRouted (ts : TransportServer) : Prop :=
  (lower ((nonEmpty? ts.type).getD "tcp").toList = "tcp".toList ∨
    lower ((nonEmpty? ts.type).getD "tcp").toList = "udp".toList) ∧ ts.pool.service?.isSome = true

/-! ### The names of listeners -/

section

variable {ls : List Listener}

theorem exists_kept {l : Listener} (h : l ∈ ls) :
    ∃ k ∈ ls.foldl addListener [], k.name = l.name ∧ k.port = l.port := by
  have hself : l.hasKey l.name l.port = true := Listener.hasKey_iff.mpr ⟨rfl, rfl⟩
  have hsome : ((ls.foldl addListener []).find? (Listener.hasKey l.name l.port)).isSome = true := by
    rw [find?_addListener, find?_nil, Option.none_or, find?_isSome]
    exact ⟨l, h, hself⟩
  obtain ⟨k, hk⟩ := Option.isSome_iff_exists.mp hsome
  exact ⟨k, mem_of_find?_eq_some hk, Listener.hasKey_iff.mp (find?_some hk)⟩

theorem mem_of_mem_kept {l : Listener} (h : l ∈ ls.foldl addListener []) : l ∈ ls :=
  mem_of_find?_eq_some (mem_addListener.mp h)

theorem nodup_buildListeners :
    ((buildListeners ls).map (·.name)).Nodup ↔
      ∀ l ∈ ls, l.name ≠ "http" ∧ ∀ l' ∈ ls, l.name = l'.name → l.port = l'.port := by
  rw [buildListeners, map_cons, nodup_cons]
  constructor
  · rintro ⟨hhttp, hnodup⟩ l hl
    obtain ⟨k, hk, hname, hport⟩ := exists_kept hl
    refine ⟨fun h ↦ hhttp ?_, fun l' hl' heq ↦ ?_⟩
    · exact mem_map.mpr ⟨k, hk, hname.trans h⟩
    · obtain ⟨k', hk', hname', hport'⟩ := exists_kept hl'
      have hsame : k = k' := inj_on_of_nodup_map hnodup hk hk'
        (hname.trans (heq.trans hname'.symm))
      rw [← hport, ← hport', hsame]
  · intro h
    constructor
    · rw [mem_map]
      rintro ⟨k, hk, hname⟩
      exact (h k (mem_of_mem_kept hk)).1 hname
    · rw [List.Nodup, pairwise_map]
      refine (pairwise_addListener ls [] .nil).imp_of_mem fun {k l} hk hl hkey heq ↦ ?_
      rw [Bool.eq_false_iff, ne_eq, Listener.hasKey_iff] at hkey
      have hport := (h k (mem_of_mem_kept hk)).2 l (mem_of_mem_kept hl) heq
      exact hkey ⟨heq.symm, hport.symm⟩

/-- Listeners for HTTPS on port 443 that are not called `http`. -/
def Secured (ls : List Listener) : Prop :=
  ∀ l ∈ ls, l.port = 443 ∧ l.protocol = "HTTPS" ∧ "https-".toList <+: l.name.toList

theorem Secured.nil : Secured [] := nofun

theorem Secured.append {ls' : List Listener} (h : Secured ls) (h' : Secured ls') :
    Secured (ls ++ ls') := fun l hl ↦ (mem_append.mp hl).elim (h l) (h' l)

theorem Secured.flatMap {α : Type} {xs : List α} {f : α → List Listener}
    (h : ∀ x ∈ xs, Secured (f x)) : Secured (xs.flatMap f) := by
  intro l hl
  obtain ⟨x, hx, hl⟩ := mem_flatMap.mp hl
  exact h x hx l hl

theorem ne_http_of_https {name : String} (h : "https-".toList <+: name.toList) : name ≠ "http" := by
  rintro rfl
  revert h
  decide

theorem Secured.nodup (h : Secured ls) : ((buildListeners ls).map (·.name)).Nodup :=
  nodup_buildListeners.mpr fun l hl ↦ ⟨ne_http_of_https (h l hl).2.2,
    fun l' hl' _ ↦ (h l hl).1.trans (h l' hl').1.symm⟩

end

/-! ### The listeners of source objects -/

theorem secured_listeners (ing : Ingress) : Secured ing.listeners := by
  intro l hl
  obtain ⟨entry, -, hl⟩ := mem_filterMap.mp hl
  obtain ⟨secretName, -, rfl⟩ := Option.map_eq_some_iff.mp hl
  refine ⟨rfl, rfl, ?_⟩
  rw [tlsListener, String.toList_append]
  exact prefix_append _ _

theorem secured_secretListener (secretName : String) (host : Option String) (ns : String) :
    Secured [secretListener secretName host ns] := by
  intro l hl
  rw [mem_singleton.mp hl]
  refine ⟨rfl, rfl, ?_⟩
  rw [secretListener, String.toList_append]
  exact prefix_append _ _

section

variable {repr : Value → String}

theorem secured_resolveTlsprofile (profiles : List TlsProfile) (vs : VirtualServer)
    (profileName : String) : Secured (resolveTlsprofile repr profiles vs profileName).1 := by
  unfold resolveTlsprofile
  split
  · exact .nil
  · split
    · exact .nil
    · split
      · exact .nil
      · exact secured_secretListener _ _ _

theorem secured_virtualserver (profiles : List TlsProfile) (target : Option String)
    (vs : VirtualServer) :
    Secured (virtualserverToHttproute repr profiles target vs).tlsListeners := by
  cases htls : vs.tls with
  | none => simp only [virtualserverToHttproute, htls, Option.elim_none, Secured.nil]
  | some tls =>
    simp only [virtualserverToHttproute, htls, Option.elim_some, clientTls]
    split
    · exact secured_secretListener _ _ _
    · exact secured_resolveTlsprofile _ _ _
    · split <;> exact .nil

theorem secured_routeTermination (route : OpenShiftRoute) : Secured (routeTermination route).1 := by
  simp only [routeTermination]
  split
  · exact .nil
  · split
    · split
      · exact .nil
      · intro l hl
        rw [mem_singleton.mp hl]
        refine ⟨rfl, rfl, ?_⟩
        have hstart : "https-".toList <+: "https-reencrypt-".toList := by decide
        rw [String.toList_append]
        exact hstart.trans (prefix_append _ _)
    · exact .nil

theorem secured_route {target : Option String} {route : OpenShiftRoute} {front : FrontHalf}
    (h : routeToBnk target route = .ok front) : Secured front.tlsListeners := by
  obtain ⟨port, -, h⟩ := bind_eq_ok.mp h
  dsimp only at h
  split at h
  · cases h
    exact .nil
  · cases h
    exact secured_routeTermination route

theorem secured_cisParts {r : CisRequest} {parts : List (FrontHalf × Option String)}
    (h : cisParts repr r = .ok parts) :
    ∃ before after, Secured before ∧ Secured after ∧ parts.flatMap (·.1.tlsListeners) =
      before ++ (ingressPart r).flatMap (·.1.tlsListeners) ++ after := by
  obtain ⟨declarations, hdeclarations, h⟩ := bind_eq_ok.mp h
  obtain ⟨routes, hroutes, h⟩ := bind_eq_ok.mp h
  cases h
  refine ⟨(virtualserverParts repr r ++ declarations).flatMap (·.1.tlsListeners),
    (routes ++ r.ingresslinks.map fun il ↦ (ingresslinkToBnk repr il, some il.ns)).flatMap
      (·.1.tlsListeners), ?_, ?_, by simp only [flatMap_append, append_assoc]⟩
  · refine Secured.flatMap fun part hpart ↦ ?_
    obtain hpart | hpart := mem_append.mp hpart
    · obtain ⟨vs, -, rfl⟩ := mem_map.mp hpart
      exact secured_virtualserver _ _ _
    · obtain ⟨decl, -, hdecl⟩ := exists_of_forall₂ (mapM_eq_ok.mp hdeclarations).flip hpart
      obtain ⟨result, -, hdecl⟩ := bind_eq_ok.mp hdecl
      cases hdecl
      exact .nil
  · refine Secured.flatMap fun part hpart ↦ ?_
    obtain hpart | hpart := mem_append.mp hpart
    · obtain ⟨route, -, hroute⟩ := exists_of_forall₂ (mapM_eq_ok.mp hroutes).flip hpart
      obtain ⟨front, hfront, hroute⟩ := bind_eq_ok.mp hroute
      cases hroute
      exact secured_route hfront
    · obtain ⟨il, -, rfl⟩ := mem_map.mp hpart
      exact .nil

theorem defaultListener_mem_ingressPart {r : CisRequest} (h : r.ingresses ≠ []) :
    defaultListener ∈ (ingressPart r).flatMap (·.1.tlsListeners) := by
  have hempty : r.ingresses.isEmpty = false := isEmpty_eq_false_iff.mpr h
  rw [ingressPart, if_neg (by rw [hempty]; decide), flatMap_singleton]
  exact mem_cons_self

end

/-! ### Routes of TransportServers -/

theorem transportserverToRoute_spec {repr : Value → String} {gatewayName gwNamespace : String}
    {ts : TransportServer} {l : Option TcpUdpRoute × List UnmappedEntry}
    (h : transportserverToRoute repr gatewayName gwNamespace ts = .ok l) :
    (¬ ts.IsRouted ∧ l.1 = none) ∨ (ts.IsRouted ∧ ∃ route number,
      l.1 = some route ∧ route.sectionName = "port-" ++ number) := by
  have hne : ∀ {text : List Char} {name : String}, String.ofList text ≠ name ↔ text ≠ name.toList := by
    intro text name
    rw [ne_eq, ne_eq, ← String.toList_inj, String.toList_ofList]
  simp only [transportserverToRoute, hne] at h
  split at h
  · next htype =>
    cases h
    exact .inl ⟨fun hrouted ↦ hrouted.1.elim htype.1 htype.2, rfl⟩
  · next htype =>
    split at h
    · next hservice =>
      cases h
      refine .inl ⟨fun hrouted ↦ ?_, rfl⟩
      have hsome := hrouted.2
      rw [hservice] at hsome
      cases hsome
    · next service hservice =>
      obtain ⟨port, -, h⟩ := bind_eq_ok.mp h
      cases h
      refine .inr ⟨⟨?_, by rw [hservice]; rfl⟩, _, _, rfl, rfl⟩
      rw [not_and_or, not_not, not_not] at htype
      exact htype

theorem Secured.name_ne {ls : List Listener} (h : Secured ls) {l : Listener}
    (hl : l ∈ buildListeners ls) (number : String) : l.name ≠ "port-" ++ number := by
  intro hname
  obtain rfl | hl := mem_cons.mp hl
  · have := congrArg (fun name ↦ name.toList.take 5) hname
    rw [String.toList_append, take_append_of_le_length (by decide)] at this
    revert this
    decide
  · have hstart := (h l (mem_of_mem_kept hl)).2.2
    rw [hname, String.toList_append] at hstart
    obtain ⟨rest, hrest⟩ := hstart
    have hhead : 'h' :: ("ttps-".toList ++ rest) = 'p' :: ("ort-".toList ++ number.toList) := hrest
    exact absurd (List.cons.inj hhead).1 (by decide)

/-! ### Where the manifests are consistent -/

theorem translateCisToBnk_manifests {repr : Value → String} {r : CisRequest} {m : CisResult}
    (h : translateCisToBnk repr r = .ok m) :
    ∃ parts layerFour, cisParts repr r = .ok parts ∧
      List.Forall₂ (fun ts l ↦ transportserverToRoute repr m.gateway.name m.gateway.ns ts = .ok l)
        r.transportservers layerFour ∧
      m.gateway.listeners = buildListeners (parts.flatMap (·.1.tlsListeners)) ∧
      m.httproute.gatewayName = m.gateway.name ∧ m.httproute.gatewayNamespace = m.gateway.ns ∧
      m.tcpUdpRoutes = layerFour.filterMap (·.1) := by
  obtain ⟨parts, hparts, h⟩ := bind_eq_ok.mp h
  obtain ⟨layerFour, hlayerFour, h⟩ := bind_eq_ok.mp h
  cases h
  refine ⟨parts, layerFour, hparts, mapM_eq_ok.mp hlayerFour, ?_, rfl, rfl, rfl⟩
  simp only [Collected.foldl_add, nil_append]

theorem cis_consistent_iff {repr : Value → String} {r : CisRequest} {m : CisResult}
    (h : translateCisToBnk repr r = .ok m) :
    Consistent m.gateway m.httproute m.tcpUdpRoutes ↔
      r.ingresses = [] ∧ ∀ ts ∈ r.transportservers, ¬ ts.IsRouted := by
  obtain ⟨parts, layerFour, hparts, htransport, hlisteners, hname, hns, hroutes⟩ :=
    translateCisToBnk_manifests h
  obtain ⟨before, after, hbefore, hafter, hcollected⟩ := secured_cisParts hparts
  have hsecured : r.ingresses = [] → Secured (parts.flatMap (·.1.tlsListeners)) := by
    intro hnone
    rw [hcollected, ingressPart, hnone]
    exact (hbefore.append .nil).append hafter
  constructor
  · intro hconsistent
    have hnone : r.ingresses = [] := by
      by_contra hsome
      have hdistinct := hconsistent.distinct
      rw [hlisteners, nodup_buildListeners, hcollected] at hdistinct
      have hmem := mem_append_left after
        (mem_append_right before (defaultListener_mem_ingressPart hsome))
      exact (hdistinct _ hmem).1 rfl
    refine ⟨hnone, fun ts hts hrouted ↦ ?_⟩
    obtain ⟨l, hl, hts⟩ := exists_of_forall₂ htransport hts
    obtain ⟨hnot, -⟩ | ⟨-, route, number, hroute, hsection⟩ := transportserverToRoute_spec hts
    · exact hnot hrouted
    · have hmem : route ∈ m.tcpUdpRoutes := by
        rw [hroutes]
        exact mem_filterMap.mpr ⟨l, hl, hroute⟩
      obtain ⟨listener, hlistener, hnamed, -⟩ := (hconsistent.layerFour route hmem).listener
      rw [hlisteners] at hlistener
      exact (hsecured hnone).name_ne hlistener number (hnamed.trans hsection)
  · rintro ⟨hnone, hunrouted⟩
    refine ⟨?_, hname, hns, fun route hroute ↦ ?_⟩
    · rw [hlisteners]
      exact (hsecured hnone).nodup
    · rw [hroutes] at hroute
      obtain ⟨l, hl, hroute⟩ := mem_filterMap.mp hroute
      obtain ⟨ts, hts, hspec⟩ := exists_of_forall₂ htransport.flip hl
      obtain ⟨-, hempty⟩ | ⟨hrouted, -⟩ := transportserverToRoute_spec hspec
      · rw [hempty] at hroute
        cases hroute
      · exact absurd hrouted (hunrouted ts hts)

def SourceListener.copy (l : SourceListener) (tls : Value) : Listener :=
  { name := l.name.getD "https", port := l.port.getD 443, protocol := "HTTPS"
    hostname := some (l.hostname.getD "*"), tls := some (.copied tls) }

theorem SourceListener.exists_tls {l : SourceListener} (h : l.isTakenOver = true) :
    ∃ tls, l.tls = some tls := by
  cases htls : l.tls with
  | none => simp [SourceListener.isTakenOver, htls] at h
  | some tls => exact ⟨tls, rfl⟩

theorem mem_passListeners {gateways : List SourceGateway} {k : Listener} :
    k ∈ passListeners gateways ↔ ∃ l ∈ gateways.flatMap (·.listeners),
      l.isTakenOver = true ∧ ∃ tls, l.tls = some tls ∧ l.copy tls = k := by
  rw [passListeners, mem_filterMap]
  refine exists_congr fun l ↦ and_congr_right fun _ ↦ ?_
  cases htls : l.tls with
  | none => simp [SourceListener.isTakenOver, htls]
  | some tls =>
    simp only [SourceListener.isTakenOver, htls, Option.any_some, Option.some.injEq]
    split
    · next hcond => simp [hcond, SourceListener.copy]
    · next hcond => simp [hcond]

theorem nodup_passListeners {gateways : List SourceGateway} :
    ((buildListeners (passListeners gateways)).map (·.name)).Nodup ↔ ListenersApart gateways := by
  rw [nodup_buildListeners]
  constructor
  · intro h l hl htaken
    obtain ⟨tls, htls⟩ := SourceListener.exists_tls htaken
    have hk := h (l.copy tls) (mem_passListeners.mpr ⟨l, hl, htaken, tls, htls, rfl⟩)
    refine ⟨hk.1, fun l' hl' htaken' hname ↦ ?_⟩
    obtain ⟨tls', htls'⟩ := SourceListener.exists_tls htaken'
    exact hk.2 (l'.copy tls') (mem_passListeners.mpr ⟨l', hl', htaken', tls', htls', rfl⟩) hname
  · intro h k hk
    obtain ⟨l, hl, htaken, tls, -, rfl⟩ := mem_passListeners.mp hk
    refine ⟨(h l hl htaken).1, fun k' hk' hname ↦ ?_⟩
    obtain ⟨l', hl', htaken', tls', -, rfl⟩ := mem_passListeners.mp hk'
    exact (h l hl htaken).2 l' hl' htaken' hname

theorem proxy_consistent_iff (showRefs : List SourceRef → String) (r : TranslateRequest) :
    Consistent (translateToBnk showRefs r).gateway (translateToBnk showRefs r).httproute [] ↔
      r.ListenersApart := by
  have hrefers : Consistent (translateToBnk showRefs r).gateway (translateToBnk showRefs r).httproute
      [] ↔ ((translateSources showRefs r).listeners.map (·.name)).Nodup := by
    refine ⟨fun h ↦ h.distinct, fun h ↦ ⟨h, ?_, ?_, nofun⟩⟩
    · simp only [translateToBnk, translateSources, httproutePassthrough]
      split
      · rfl
      · split <;> rfl
    · simp only [translateToBnk, translateSources, httproutePassthrough]
      split
      · rfl
      · split <;> rfl
  rw [hrefers, translateSources, TranslateRequest.ListenersApart]
  split
  · next hingress =>
    rw [ingressToHttproute, collectIngresses_eq]
    exact iff_of_true (Secured.flatMap fun ing _ ↦ secured_listeners ing).nodup (.inl hingress)
  · next hingress =>
    rw [httproutePassthrough]
    split
    · next hempty =>
      refine iff_of_true (nodup_singleton _) (.inr (.inl ?_))
      exact List.isEmpty_iff.mp hempty
    · next hempty =>
      rw [nodup_passListeners]
      refine ⟨fun h ↦ .inr (.inr h), ?_⟩
      rintro (h | h | h)
      · exact absurd h hingress
      · exact absurd (List.isEmpty_iff.mpr h) hempty
      · exact h

/-- The manifests of a proxy are consistent exactly where the listeners of the source gateways do not
get into each other's way. Those of CIS are consistent exactly where there is no Ingress and no
TransportServer that a route is written for. -/
theorem manifests_consistent_iff (showRefs : List SourceRef → String) (repr : Value → String) :
    (∀ r : TranslateRequest,
      Consistent (translateToBnk showRefs r).gateway (translateToBnk showRefs r).httproute [] ↔
        r.ListenersApart) ∧
    ∀ (r : CisRequest) (m : CisResult), translateCisToBnk repr r = .ok m →
      (Consistent m.gateway m.httproute m.tcpUdpRoutes ↔
        r.ingresses = [] ∧ ∀ ts ∈ r.transportservers, ¬ ts.IsRouted) :=
  ⟨proxy_consistent_iff showRefs, fun _ _ h ↦ cis_consistent_iff h⟩

/-- A VirtualServer with a certificate. -/
def webRequest : CisRequest :=
  { virtualservers := [{
      name := "web", host := some "web.test", pools := [{ service := some "web" }]
      tls := some { clientSSL := some "web-cert" } }] }

theorem webRequest_consistent :
    ∃ m, translateCisToBnk (fun _ ↦ "") webRequest = .ok m ∧
      m.gateway.listeners.map (·.name) = ["http", "https-web-cert"] ∧
      Consistent m.gateway m.httproute m.tcpUdpRoutes := by
  have hresult : translateCisToBnk (fun _ ↦ "") webRequest = .ok _ := rfl
  refine ⟨_, hresult, by decide +kernel, ?_⟩
  exact ((manifests_consistent_iff (fun _ ↦ "") (fun _ ↦ "")).2 webRequest _ hresult).mpr
    ⟨rfl, List.forall_mem_nil _⟩

/-- A TransportServer for TCP. -/
def cacheRequest : CisRequest :=
  { transportservers := [{
      name := "cache", pool := { service := some "redis", servicePort := some (.int 6379) } }] }

/-- The TCPRoute of a TransportServer refers to a listener that the gateway does not have, and with
an Ingress the gateway has the listener for HTTP twice. -/
theorem listener_missing_and_doubled :
    (∃ m, translateCisToBnk (fun _ ↦ "") cacheRequest = .ok m ∧
      m.gateway.listeners.map (·.name) = ["http"] ∧
      m.tcpUdpRoutes.map (·.sectionName) = ["port-6379"] ∧
      ¬ Consistent m.gateway m.httproute m.tcpUdpRoutes) ∧
    ∃ m, translateCisToBnk (fun _ ↦ "") { ingresses := [{ name := "shop" }] } = .ok m ∧
      m.gateway.listeners.map (·.name) = ["http", "http"] ∧
      ¬ Consistent m.gateway m.httproute m.tcpUdpRoutes := by
  refine ⟨⟨_, rfl, by decide +kernel, by decide +kernel, fun h ↦ ?_⟩,
    ⟨_, rfl, by decide +kernel, fun h ↦ ?_⟩⟩
  · obtain ⟨-, hunrouted⟩ := (cis_consistent_iff (r := cacheRequest) rfl).mp h
    exact hunrouted _ (List.mem_singleton_self _) ⟨.inl (by decide +kernel), rfl⟩
  · exact absurd h.distinct (by decide +kernel)

end BnkForge.Proxy
