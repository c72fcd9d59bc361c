import BnkForge.Lib.ExceptResult
import BnkForge.Proxy.Cis

/-!
# The namespaces of translated backends

A backend without a namespace is one of the namespace of the route. The namespace of the route is known
when all source objects have been read, and whether a backend has its namespace written is decided for
each of them before that.
-/

namespace BnkForge.Proxy

open Python ExceptResult List

/-! ### What backends denote -/

def realRefs (refs : List BackendRef) : List BackendRef :=
  refs.filter fun ref ↦ ref.name ≠ placeholderName

/-- The services that the backends of rules denote in a route of the namespace `home`, without the
placeholder. -/
def denoted (home : String) (rules : List RouteRule) : List (String × String) :=
  (realRefs (rules.flatMap (·.backendRefs))).map fun ref ↦ (ref.ns.getD home, ref.name)

def KeepsNamespaces (route : HttpRoute) (services : List (String × String)) : Prop :=
  denoted route.ns route.rules = services.filter fun s ↦ s.2 ≠ placeholderName

instance (route : HttpRoute) (services : List (String × String)) :
    Decidable (KeepsNamespaces route services) :=
  inferInstanceAs (Decidable (_ = _))

def Ingress.backends (ing : Ingress) : List (String × String) :=
  (ing.services.map fun p ↦ (ing.ns, p.2)) ++
    (nonEmpty? ing.fallback.name).toList.map fun name ↦ (ing.ns, name)

def SourceRoute.backends (route : SourceRoute) : List (String × String) :=
  route.rules.flatMap fun rule ↦ rule.kept.map fun br ↦ (br.ns.getD route.ns, br.name.getD "")

def VirtualServer.backends (vs : VirtualServer) : List (String × String) :=
  vs.services.map fun p ↦ (p.1.nsIn vs, p.2)

/-- The services of the objects that are translated. -/
def TranslateRequest.backends (r : TranslateRequest) : List (String × String) :=
  if isIngressRequest r then r.sourceIngresses.flatMap (·.backends)
  else r.sourceHttproutes.flatMap (·.backends)

def CisRequest.backends (r : CisRequest) : List (String × String) :=
  r.virtualservers.flatMap (·.backends) ++ r.ingresses.flatMap (·.backends)

/-! ### Where they are right -/

def cisNamespace (r : CisRequest) : Option String :=
  (r.targetNamespace.or (r.virtualservers.findSome? fun vs ↦ nonEmpty? (some vs.ns))).or
    (nonEmpty? (ingressNamespace r.targetNamespace r.ingresses))

/-- The Ingresses whose namespace is not written are of the namespace `home`: those with a default
backend, and those with a path that are of the namespace of the first Ingress. -/
structure IngressesAtHome (targetNamespace : Option String) (home : String) (ingresses : List Ingress) :
    Prop where
  path : ∀ ing ∈ ingresses, ∀ p ∈ ing.services, p.2 ≠ placeholderName →
    (ingressNamespace targetNamespace ingresses).getD "" = "" ∨
      ing.ns = (ingressNamespace targetNamespace ingresses).getD "" → ing.ns = home
  default : ∀ ing ∈ ingresses, ∀ name ∈ nonEmpty? ing.fallback.name, name ≠ placeholderName →
    ing.ns = home

/-- The routes with a backend that has no namespace are of the namespace `home`. -/
def RoutesAtHome (home : String) (routes : List SourceRoute) : Prop :=
  ∀ route ∈ routes, ∀ rule ∈ route.rules, ∀ br ∈ rule.kept, br.name.getD "" ≠ placeholderName →
    br.ns = none → route.ns = home

/-- The pools of the namespace that their VirtualServer would have a route in are of `home`. -/
def VirtualServersAtHome (targetNamespace : Option String) (home : String)
    (virtualservers : List VirtualServer) : Prop :=
  ∀ vs ∈ virtualservers, ∀ p ∈ vs.services, p.2 ≠ placeholderName →
    p.1.nsIn vs = localNamespace targetNamespace vs.ns → p.1.nsIn vs = home

def TranslateRequest.AtHome (r : TranslateRequest) : Prop :=
  if isIngressRequest r then
    IngressesAtHome r.targetNamespace
      (orDefault (ingressNamespace r.targetNamespace r.sourceIngresses)) r.sourceIngresses
  else
    RoutesAtHome (orDefault (routesNamespace r.targetNamespace r.sourceHttproutes))
      r.sourceHttproutes

/-- Each backend whose namespace is not written is of the namespace of the route. -/
structure CisRequest.AtHome (r : CisRequest) : Prop where
  virtualservers :
    VirtualServersAtHome r.targetNamespace (orDefault (cisNamespace r)) r.virtualservers
  ingresses : IngressesAtHome r.targetNamespace (orDefault (cisNamespace r)) r.ingresses

/-! ### Backends with their namespaces -/

abbrev Written := List (String × BackendRef)

theorem denoted_eq_iff (home : String) (ws : Written) :
    ((realRefs (ws.map (·.2))).map fun ref ↦ (ref.ns.getD home, ref.name)) =
      (ws.map fun w ↦ (w.1, w.2.name)).filter (fun s ↦ s.2 ≠ placeholderName) ↔
      ∀ w ∈ ws, w.2.name ≠ placeholderName → w.2.ns.getD home = w.1 := by
  induction ws with
  | nil => simp [realRefs]
  | cons w ws ih =>
    rw [forall_mem_cons, ← ih, map_cons, map_cons, realRefs]
    by_cases h : w.2.name = placeholderName
    · rw [filter_cons_of_neg (by simpa using h), filter_cons_of_neg (by simpa using h)]
      simp [h, realRefs]
    · rw [filter_cons_of_pos (by simpa using h), filter_cons_of_pos (by simpa using h),
        map_cons, cons_eq_cons]
      simp [h, realRefs]

theorem keepsNamespaces_iff {route : HttpRoute} {services : List (String × String)} {ws : Written}
    (hrefs : realRefs (route.rules.flatMap (·.backendRefs)) = realRefs (ws.map (·.2)))
    (hservices : (ws.map fun w ↦ (w.1, w.2.name)) = services) :
    KeepsNamespaces route services ↔
      ∀ w ∈ ws, w.2.name ≠ placeholderName → w.2.ns.getD route.ns = w.1 := by
  rw [KeepsNamespaces, denoted, hrefs, ← hservices, denoted_eq_iff]

theorem realRefs_placeholder (rules : List RouteRule) :
    realRefs ((if rules.isEmpty then [placeholderRule] else rules).flatMap (·.backendRefs)) =
      realRefs (rules.flatMap (·.backendRefs)) := by
  split
  · next h =>
    rw [List.isEmpty_iff.mp h]
    rfl
  · rfl

theorem realRefs_flatMap {α : Type} (f : α → List BackendRef) (xs : List α) :
    realRefs (xs.flatMap f) = xs.flatMap fun x ↦ realRefs (f x) :=
  filter_flatMap ..

/-- What an Ingress gives in a route of the namespace `gw`. -/
def Ingress.written (gw : String) (ing : Ingress) : Written :=
  (ing.services.map fun p ↦
    (ing.ns, { name := p.2, port := portOr80 p.1.backend
               ns := if gw ≠ "" ∧ ing.ns ≠ gw then some ing.ns else none })) ++
    (nonEmpty? ing.fallback.name).toList.map fun name ↦
      (ing.ns, { name := name, port := portOr80 ing.fallback })

theorem Ingress.written_refs (gw : String) (ing : Ingress) :
    (ing.written gw).map (·.2) = (ing.routeRules gw).flatMap (·.backendRefs) := by
  rw [Ingress.written, Ingress.routeRules, Ingress.defaultRules, map_append, flatMap_append,
    flatMap_map]
  congr 1
  · rw [map_map, ← flatMap_pure_eq_map]
    rfl
  · cases nonEmpty? ing.fallback.name <;> rfl

theorem Ingress.written_services (gw : String) (ing : Ingress) :
    ((ing.written gw).map fun w ↦ (w.1, w.2.name)) = ing.backends := by
  rw [Ingress.written, Ingress.backends, map_append, map_map, map_map]
  rfl

theorem Ingress.written_iff (gw home : String) (ing : Ingress) :
    (∀ w ∈ ing.written gw, w.2.name ≠ placeholderName → w.2.ns.getD home = w.1) ↔
      (∀ p ∈ ing.services, p.2 ≠ placeholderName → gw = "" ∨ ing.ns = gw → ing.ns = home) ∧
        ∀ name ∈ nonEmpty? ing.fallback.name, name ≠ placeholderName → ing.ns = home := by
  rw [Ingress.written, forall_mem_append, forall_mem_map]
  refine and_congr (forall₃_congr fun p _ _ ↦ ?_) ?_
  · by_cases hwritten : gw ≠ "" ∧ ing.ns ≠ gw
    · simp [hwritten]
    · have hlocal : gw = "" ∨ ing.ns = gw := by tauto
      rw [if_neg hwritten, forall_prop_of_true hlocal]
      exact eq_comm
  · rw [forall_mem_map]
    refine forall_congr' fun name ↦ ?_
    rw [Option.mem_toList]
    exact forall₂_congr fun _ _ ↦ eq_comm

theorem ingresses_written_iff (targetNamespace : Option String) (home : String)
    (ingresses : List Ingress) :
    (∀ w ∈ ingresses.flatMap
        (Ingress.written ((ingressNamespace targetNamespace ingresses).getD "")),
      w.2.name ≠ placeholderName → w.2.ns.getD home = w.1) ↔
      IngressesAtHome targetNamespace home ingresses := by
  rw [forall_mem_flatMap]
  simp only [Ingress.written_iff]
  constructor
  · exact fun h ↦ ⟨fun ing hing ↦ (h ing hing).1, fun ing hing ↦ (h ing hing).2⟩
  · exact fun h ing hing ↦ ⟨h.path ing hing, h.default ing hing⟩

def SourceRoute.written (route : SourceRoute) : Written :=
  route.rules.flatMap fun rule ↦ rule.kept.map fun br ↦ (br.ns.getD route.ns, copyRef br)

theorem SourceRoute.written_iff (home : String) (route : SourceRoute) :
    (∀ w ∈ route.written, w.2.name ≠ placeholderName → w.2.ns.getD home = w.1) ↔
      ∀ rule ∈ route.rules, ∀ br ∈ rule.kept, br.name.getD "" ≠ placeholderName → br.ns = none →
        route.ns = home := by
  rw [SourceRoute.written, forall_mem_flatMap]
  refine forall₂_congr fun rule _ ↦ ?_
  rw [forall_mem_map]
  refine forall₃_congr fun br _ _ ↦ ?_
  cases hns : br.ns with
  | none =>
    simp only [copyRef, hns, Option.getD_none, forall_const]
    exact eq_comm
  | some ns => simp [copyRef, hns]

def VirtualServer.written (targetNamespace : Option String) (vs : VirtualServer) : Written :=
  vs.services.map fun p ↦
    (p.1.nsIn vs,
      { name := p.2, port := IntOrString.number p.1.servicePort?
        ns := if p.1.nsIn vs ≠ localNamespace targetNamespace vs.ns then some (p.1.nsIn vs) else none })

theorem VirtualServer.written_iff (targetNamespace : Option String) (home : String)
    (vs : VirtualServer) :
    (∀ w ∈ vs.written targetNamespace, w.2.name ≠ placeholderName → w.2.ns.getD home = w.1) ↔
      ∀ p ∈ vs.services, p.2 ≠ placeholderName →
        p.1.nsIn vs = localNamespace targetNamespace vs.ns → p.1.nsIn vs = home := by
  rw [VirtualServer.written, forall_mem_map]
  refine forall₃_congr fun p _ _ ↦ ?_
  by_cases hlocal : p.1.nsIn vs = localNamespace targetNamespace vs.ns
  · rw [if_neg (not_not.mpr hlocal), forall_prop_of_true hlocal]
    exact eq_comm
  · simp [hlocal]

/-! ### The translation of a proxy -/

theorem ingresses_written_refs (gw : String) (ingresses : List Ingress) :
    (ingresses.flatMap (Ingress.written gw)).map (·.2) =
      (ingresses.flatMap fun ing ↦ ing.routeRules gw).flatMap (·.backendRefs) := by
  rw [map_flatMap, flatMap_assoc]
  simp only [Ingress.written_refs]

theorem ingresses_written_services (gw : String) (ingresses : List Ingress) :
    ((ingresses.flatMap (Ingress.written gw)).map fun w ↦ (w.1, w.2.name)) =
      ingresses.flatMap (·.backends) := by
  rw [map_flatMap]
  simp only [Ingress.written_services]

theorem ingressToHttproute_keepsNamespaces_iff (proxyType gatewayName : String)
    (targetNamespace : Option String) (ingresses : List Ingress) :
    KeepsNamespaces (ingressToHttproute proxyType gatewayName targetNamespace ingresses).route
        (ingresses.flatMap (·.backends)) ↔
      IngressesAtHome targetNamespace (orDefault (ingressNamespace targetNamespace ingresses))
        ingresses := by
  rw [← ingresses_written_iff, ingressToHttproute, collectIngresses_eq]
  refine keepsNamespaces_iff ?_ (ingresses_written_services _ _)
  exact (realRefs_placeholder _).trans (by rw [ingresses_written_refs])

theorem realRefs_passRule (showRefs : List SourceRef → String) (route : SourceRoute)
    (rule : SourceRule) :
    realRefs (passRule showRefs route rule).1.backendRefs = realRefs (rule.kept.map copyRef) := by
  simp only [passRule]
  split
  · next hlost =>
    rw [Bool.and_eq_true, List.isEmpty_iff] at hlost
    rw [hlost.1]
    rfl
  · rfl

theorem httproutePassthrough_keepsNamespaces_iff (showRefs : List SourceRef → String)
    (gatewayName : String) (targetNamespace : Option String) (routes : List SourceRoute)
    (gateways : List SourceGateway) :
    KeepsNamespaces
        (httproutePassthrough showRefs gatewayName targetNamespace routes gateways).route
        (routes.flatMap (·.backends)) ↔
      RoutesAtHome (orDefault (routesNamespace targetNamespace routes)) routes := by
  have hwritten (home : String) : RoutesAtHome home routes ↔
      ∀ w ∈ routes.flatMap SourceRoute.written,
        w.2.name ≠ placeholderName → w.2.ns.getD home = w.1 := by
    rw [forall_mem_flatMap]
    simp only [SourceRoute.written_iff]
    rfl
  have hservices : ((routes.flatMap SourceRoute.written).map fun w ↦ (w.1, w.2.name)) =
      routes.flatMap (·.backends) := by
    simp only [map_flatMap, SourceRoute.written, map_map]
    rfl
  rw [hwritten]
  cases routes with
  | nil => exact iff_of_true rfl nofun
  | cons route routes =>
    rw [httproutePassthrough, if_neg (by simp), foldl_passRoute]
    refine keepsNamespaces_iff ?_ hservices
    refine (realRefs_placeholder _).trans ?_
    rw [nil_append, flatMap_assoc, map_flatMap, realRefs_flatMap,
      realRefs_flatMap]
    refine flatMap_congr fun route _ ↦ ?_
    rw [flatMap_map, SourceRoute.written, map_flatMap, realRefs_flatMap, realRefs_flatMap]
    refine flatMap_congr fun rule _ ↦ ?_
    rw [realRefs_passRule, map_map]
    rfl

theorem translateToBnk_keepsNamespaces_iff (showRefs : List SourceRef → String)
    (r : TranslateRequest) :
    KeepsNamespaces (translateToBnk showRefs r).httproute r.backends ↔ r.AtHome := by
  rw [translateToBnk, translateSources, TranslateRequest.backends, TranslateRequest.AtHome]
  split
  · exact ingressToHttproute_keepsNamespaces_iff ..
  · exact httproutePassthrough_keepsNamespaces_iff ..

/-! ### The translation of CIS -/

/-- The source objects are VirtualServers and Ingresses. -/
structure CisRequest.OfNamespaced (r : CisRequest) : Prop where
  as3Declarations : r.as3Declarations = []
  routes : r.routes = []
  ingresslinks : r.ingresslinks = []

theorem cisParts_of_namespaced (repr : Value → String) {r : CisRequest} (h : r.OfNamespaced) :
    cisParts repr r = .ok (virtualserverParts repr r ++ ingressPart r) := by
  simp [cisParts, h.as3Declarations, h.routes, h.ingresslinks, pure, Except.pure, bind, Except.bind]

theorem virtualserverParts_refs (repr : Value → String) (r : CisRequest) :
    ((virtualserverParts repr r).flatMap (·.1.rules)).flatMap (·.backendRefs) =
      (r.virtualservers.flatMap (VirtualServer.written r.targetNamespace)).map (·.2) := by
  rw [virtualserverParts, flatMap_map, flatMap_assoc, map_flatMap]
  refine flatMap_congr fun vs _ ↦ ?_
  rw [virtualserverToHttproute, flatMap_map, VirtualServer.written, map_map,
    ← flatMap_pure_eq_map]
  rfl

theorem ingressPart_refs (r : CisRequest) :
    realRefs (((ingressPart r).flatMap (·.1.rules)).flatMap (·.backendRefs)) =
      realRefs ((r.ingresses.flatMap (Ingress.written
        ((ingressNamespace r.targetNamespace r.ingresses).getD ""))).map (·.2)) := by
  rw [ingressPart]
  split
  · next h =>
    rw [List.isEmpty_iff.mp h]
    rfl
  · rw [flatMap_singleton, ingressToHttproute, collectIngresses_eq]
    exact (realRefs_placeholder _).trans (by rw [ingresses_written_refs])

def CisRequest.written (r : CisRequest) : Written :=
  r.virtualservers.flatMap (VirtualServer.written r.targetNamespace) ++
    r.ingresses.flatMap (Ingress.written ((ingressNamespace r.targetNamespace r.ingresses).getD ""))

theorem cisRefs (repr : Value → String) (r : CisRequest) :
    realRefs (((virtualserverParts repr r ++ ingressPart r).flatMap (·.1.rules)).flatMap
      (·.backendRefs)) = realRefs (r.written.map (·.2)) := by
  have happend (as bs : List BackendRef) : realRefs (as ++ bs) = realRefs as ++ realRefs bs :=
    filter_append ..
  rw [flatMap_append, flatMap_append, happend, virtualserverParts_refs, ingressPart_refs,
    CisRequest.written, map_append, happend]

theorem cisWritten_services (r : CisRequest) :
    (r.written.map fun w ↦ (w.1, w.2.name)) = r.backends := by
  rw [CisRequest.written, CisRequest.backends, map_append, ingresses_written_services,
    map_flatMap]
  congr 1
  refine flatMap_congr fun vs _ ↦ ?_
  rw [VirtualServer.written, map_map]
  rfl

theorem findSome?_parts (repr : Value → String) (r : CisRequest) :
    r.targetNamespace.or ((virtualserverParts repr r ++ ingressPart r).findSome? fun part ↦
      nonEmpty? part.2) = cisNamespace r := by
  cases htarget : r.targetNamespace with
  | some ns => simp [cisNamespace, htarget]
  | none =>
    have hingress : (ingressPart r).findSome? (fun part ↦ nonEmpty? part.2) =
        nonEmpty? (ingressNamespace none r.ingresses) := by
      rw [ingressPart]
      split
      · next h =>
        rw [List.isEmpty_iff.mp h]
        rfl
      · rw [findSome?_singleton, ingressToHttproute, collectIngresses_eq, htarget]
    rw [Option.none_or, findSome?_append, hingress, virtualserverParts, findSome?_map,
      cisNamespace, htarget, Option.none_or]
    rfl

theorem translateCisToBnk_keepsNamespaces_iff (repr : Value → String) {r : CisRequest}
    (h : r.OfNamespaced) {result : CisResult} (hresult : translateCisToBnk repr r = .ok result) :
    KeepsNamespaces result.httproute r.backends ↔ r.AtHome := by
  rw [translateCisToBnk, cisParts_of_namespaced repr h, bind_eq_ok] at hresult
  obtain ⟨_, ⟨⟩, hresult⟩ := hresult
  obtain ⟨layerFour, -, hresult⟩ := bind_eq_ok.mp hresult
  cases hresult
  rw [Collected.foldl_add]
  simp only [findSome?_parts, nil_append]
  have hrefs := (realRefs_placeholder ((virtualserverParts repr r ++ ingressPart r).flatMap
    (·.1.rules))).trans (cisRefs repr r)
  refine (keepsNamespaces_iff hrefs (cisWritten_services r)).trans ?_
  rw [CisRequest.written, forall_mem_append, ingresses_written_iff, forall_mem_flatMap]
  simp only [VirtualServer.written_iff]
  exact ⟨fun h ↦ ⟨h.1, h.2⟩, fun h ↦ ⟨h.virtualservers, h.ingresses⟩⟩

/-! ### Both translations -/

/-- Every backend of the route denotes the service that it was translated from, in its namespace,
exactly where the backends whose namespace is not written are of the namespace of the route. -/
theorem backends_keep_namespaces_iff (showRefs : List SourceRef → String) (repr : Value → String) :
    (∀ r : TranslateRequest,
      KeepsNamespaces (translateToBnk showRefs r).httproute r.backends ↔ r.AtHome) ∧
    ∀ r : CisRequest, r.OfNamespaced → ∀ result, translateCisToBnk repr r = .ok result →
      (KeepsNamespaces result.httproute r.backends ↔ r.AtHome) :=
  ⟨translateToBnk_keepsNamespaces_iff showRefs,
    fun _ h _ hresult ↦ translateCisToBnk_keepsNamespaces_iff repr h hresult⟩

/-- A VirtualServer with a pool in another namespace, and an Ingress in a third one. -/
def mixedRequest : CisRequest :=
  { virtualservers := [{
      name := "shop", ns := "apps"
      pools := [{ service := some "web" }, { service := some "api", ns := some "backend" }] }]
    ingresses := [{
      name := "legacy", ns := "old"
      rules := [{ paths := [{ backend := { name := some "app", portNumber := some 80 } }] }] }]
    targetNamespace := some "edge" }

/-- With an override the pools and the paths have their namespaces written. -/
theorem mixedRequest_keeps_namespaces :
    ∃ result, translateCisToBnk (fun _ ↦ "") mixedRequest = .ok result ∧
      KeepsNamespaces result.httproute [("apps", "web"), ("backend", "api"), ("old", "app")] := by
  refine ⟨_, rfl, ?_⟩
  refine ((backends_keep_namespaces_iff (fun _ ↦ "") _).2 mixedRequest ⟨rfl, rfl, rfl⟩ _ rfl).mpr
    ⟨?_, ?_, ?_⟩
  · unfold VirtualServersAtHome
    decide +kernel
  · decide +kernel
  · decide +kernel

def ingressIn (ns : String) : Ingress :=
  { name := "shop", ns := ns
    rules := [{ paths := [{ backend := { name := some "web", portNumber := some 80 } }] }]
    defaultBackend := some { name := some "fallback", portNumber := some 80 } }

def twoNamespaces : TranslateRequest :=
  { proxyType := "nginx", sourceKind := "IngressClass"
    sourceIngresses := [ingressIn "red", ingressIn "blue"] }

/-- The second default backend is one of the namespace of the first Ingress. -/
theorem defaultBackend_changes_namespace :
    twoNamespaces.backends =
        [("red", "web"), ("red", "fallback"), ("blue", "web"), ("blue", "fallback")] ∧
      denoted (translateToBnk (fun _ ↦ "") twoNamespaces).httproute.ns
          (translateToBnk (fun _ ↦ "") twoNamespaces).httproute.rules =
        [("red", "web"), ("red", "fallback"), ("blue", "web"), ("red", "fallback")] ∧
      ¬ KeepsNamespaces (translateToBnk (fun _ ↦ "") twoNamespaces).httproute
        twoNamespaces.backends := by
  decide +kernel

end BnkForge.Proxy
