import BnkForge.Proxy.Translate

/-!
# Sources that are client objects

What `_obj_to_dict` (`backend/services/proxy_translate_service.py:753–776`) makes of a client object has
its keys in snake case and `None` for what is absent. HTTPRoutes are taken for dicts (`:420`).
-/

namespace BnkForge.Proxy

open Python List

def snakeCase (key : String) : String :=
  String.ofList (key.toList.flatMap fun c ↦ if c.isUpper then ['_', c.toLower] else [c])

def found {α : Type} (asked : List String) (key : String) (value : Option α) : Option α :=
  if asked.contains (snakeCase key) then value else none

def IngressPath.ofObject (p : IngressPath) : IngressPath :=
  { p with pathType := found ["pathType"] "pathType" p.pathType }

def IngressTls.ofObject (entry : IngressTls) : IngressTls :=
  { entry with secretName := found ["secretName", "secret_name"] "secretName" entry.secretName }

/-- What is found of an Ingress, which has a name and a namespace. The keys of one word are spelled alike. -/
def Ingress.ofObject (ing : Ingress) : Ingress :=
  { ing with
    tls := ing.tls.map IngressTls.ofObject
    rules := ing.rules.map fun rule ↦ { rule with paths := rule.paths.map IngressPath.ofObject }
    defaultBackend := found ["defaultBackend"] "defaultBackend" ing.defaultBackend }

inductive SourceError
  | attributeError
  deriving DecidableEq, Repr

/-- `translate_to_bnk`, where the sources are client objects. -/
def translateObjects (showRefs : List SourceRef → String) (r : TranslateRequest) :
    Except SourceError TranslationResult :=
  if isIngressRequest r then
    .ok (translateToBnk showRefs { r with sourceIngresses := r.sourceIngresses.map Ingress.ofObject })
  else if r.sourceHttproutes.isEmpty then .ok (translateToBnk showRefs r)
  else .error .attributeError

/-- The paths to services are of the type `Prefix`, by name or for want of one, and no service is a default
backend. -/
structure Ingress.ReadsAlike (ing : Ingress) : Prop where
  paths : ∀ p ∈ ing.services, pathTypeOf p.1 = "Prefix"
  fallback : nonEmpty? ing.fallback.name = none

section

variable {ing : Ingress}

theorem services_ofObject (ing : Ingress) :
    ing.ofObject.services = ing.services.map fun p ↦ (p.1.ofObject, p.2) := by
  simp only [Ingress.services, servicesOf, Ingress.ofObject, flatMap_map, filterMap_flatMap, map_flatMap,
    filterMap_map, map_filterMap]
  congr 1
  funext rule
  congr 1
  funext p
  cases h : nonEmpty? p.backend.name <;> simp [IngressPath.ofObject, h]

theorem hosts_ofObject (ing : Ingress) : ing.ofObject.hosts = ing.hosts := by
  simp [Ingress.hosts, Ingress.ofObject, IngressTls.ofObject, flatMap_map, filterMap_map]

theorem listeners_ofObject (ing : Ingress) : ing.ofObject.listeners = ing.listeners := by
  have htls : ing.ofObject.tls = ing.tls := map_id ing.tls
  rw [Ingress.listeners, htls]
  rfl

theorem ingressNamespace_ofObject (target : Option String) (ings : List Ingress) :
    ingressNamespace target (ings.map Ingress.ofObject) = ingressNamespace target ings := by
  simp only [ingressNamespace, find?_map, Function.comp_def, services_ofObject, isEmpty_map, Option.map_map]
  rfl

theorem Ingress.ReadsAlike.routeRules (h : ing.ReadsAlike) (gw : String) :
    ing.ofObject.routeRules gw = ing.routeRules gw := by
  have hpaths : ∀ p ∈ ing.services,
      pathRule ing.ofObject p.1.ofObject p.2 gw = pathRule ing p.1 p.2 gw := fun p hp ↦ by
    rw [pathRule, pathRule, h.paths p hp]
    rfl
  have hdefault : ing.defaultRules = [] := by rw [Ingress.defaultRules, h.fallback]; rfl
  rw [Ingress.routeRules, Ingress.routeRules, services_ofObject, map_map, hdefault]
  exact congrArg (· ++ []) (map_congr_left hpaths)

theorem Ingress.ReadsAlike.flags (h : ing.ReadsAlike) (proxyType gw : String) :
    ing.ofObject.flags proxyType gw = ing.flags proxyType gw := by
  have hpaths : ∀ p ∈ ing.services,
      pathFlags ing.ofObject p.1.ofObject p.2 gw = pathFlags ing p.1 p.2 gw := fun p hp ↦ by
    rw [pathFlags, pathFlags, h.paths p hp]
    rfl
  rw [Ingress.flags, Ingress.flags, services_ofObject, flatMap_map]
  exact congrArg _ (flatMap_congr hpaths)

end

def shop : Ingress where
  name := "shop"
  rules := [{ paths := [{ path := some "/cart", backend := ⟨some "cart", some 80, none⟩ }] }]
  defaultBackend := some ⟨some "pages", some 8080, none⟩

def nginxRequest (ing : Ingress) : TranslateRequest :=
  { proxyType := "nginx", sourceKind := "IngressClass", sourceIngresses := [ing] }

def envoyRequest : TranslateRequest :=
  { proxyType := "envoy", sourceKind := "GatewayClass", sourceHttproutes := [{}] }

def routed (t : Except SourceError TranslationResult) : Option (List (List BackendRef)) :=
  t.toOption.map fun t ↦ t.httproute.rules.map (·.backendRefs)

end BnkForge.Proxy
