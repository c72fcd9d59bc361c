import BnkForge.Proxy.As3Services
import BnkForge.Proxy.Losses

/-!
# What the translation of CIS loses

The pools of VirtualServers, the services of AS3 declarations and the Ingresses of a CIS request, in
what is emitted for all source objects together.
-/

namespace BnkForge.Proxy

open Python ExceptResult List

/-! ### What is represented or named -/

def Pool.number? (pool : Pool) : Option Int :=
  match pool.servicePort? with
  | some (.int n) => nonZero? (some n)
  | _ => none

def Emitted.CoversPool (m : Emitted) (vs : VirtualServer) (pool : Pool) : Prop :=
  match pool.servicePort? with
  | some (.str portName) =>
    pool.service?.isSome = true ∧ vs.source.portByName portName ∈ m.unmapped
  | _ => ∃ service ∈ pool.service?, m.Routes .pathPrefix pool.pathValue service pool.number?

def Emitted.CoversService (m : Emitted) (repr : Value → String) (s : Source) (o : As3Object) : Prop :=
  (∃ e ∈ m.unmapped, e.IsAbout s) ∨
    ∃ members, o.members.iterate = .ok members ∧ ∃ member ∈ members, ∃ n,
      memberNumber member = some n ∧
        m.Routes .pathPrefix "/" ((memberService member).toText repr) (some n)

def As3Declaration.objects (repr : Value → String) (decl : As3Declaration) : List As3Object :=
  match as3Envelope repr decl.source decl.clean with
  | .inl adc => as3Objects adc
  | .inr _ => []

/-- Nothing of what a request has is lost. -/
structure CisRequest.Covered (repr : Value → String) (r : CisRequest) (m : Emitted) : Prop where
  ingresses : ∀ ing ∈ r.ingresses, m.CoversIngress ing
  pools : ∀ vs ∈ r.virtualservers, ∀ pool ∈ vs.pools, m.CoversPool vs pool
  services : ∀ decl ∈ r.as3Declarations, ∀ o ∈ decl.objects repr,
    m.CoversService repr (o.source decl.source) o

/-! ### Where nothing is lost -/

def CisRequest.secretListeners (repr : Value → String) (r : CisRequest) : List Listener :=
  (virtualserverParts repr r).flatMap (·.1.tlsListeners) ++ r.ingresses.flatMap (·.listeners)

/-- Nothing of the Ingresses and the VirtualServers of a request is passed over. -/
structure CisRequest.NothingSkipped (repr : Value → String) (r : CisRequest) : Prop where
  ingresses : ∀ ing ∈ r.ingresses, IngressKept r.ingresses (r.secretListeners repr) ing
  pools : ∀ vs ∈ r.virtualservers, ∀ pool ∈ vs.pools, pool.service?.isSome = true

def CisRequest.As3Kept (repr : Value → String) (r : CisRequest) : Prop :=
  ∀ decl ∈ r.as3Declarations, ∀ o ∈ decl.objects repr, o.Kept

/-! ### What is emitted -/

section

variable {repr : Value → String} {r : CisRequest}

def emittedOf (r : CisRequest) (parts : List (FrontHalf × Option String))
    (entries : List UnmappedEntry) : Emitted :=
  { ns := orDefault (r.targetNamespace.or (parts.findSome? fun part ↦ nonEmpty? part.2))
    rules := if (parts.flatMap (·.1.rules)).isEmpty then [placeholderRule]
      else parts.flatMap (·.1.rules)
    listeners := buildListeners (parts.flatMap (·.1.tlsListeners))
    unmapped := parts.flatMap (·.1.unmapped) ++
      (if (parts.flatMap (·.1.rules)).isEmpty then [noCisRulesEntry] else []) ++ entries }

def allParts (repr : Value → String) (r : CisRequest)
    (declarations routes : List (FrontHalf × Option String)) : List (FrontHalf × Option String) :=
  virtualserverParts repr r ++ declarations ++ ingressPart r ++ routes ++
    r.ingresslinks.map fun il ↦ (ingresslinkToBnk repr il, some il.ns)

theorem mem_allParts {declarations routes : List (FrontHalf × Option String)}
    {part : FrontHalf × Option String} :
    part ∈ allParts repr r declarations routes ↔
      part ∈ virtualserverParts repr r ∨ part ∈ declarations ∨ part ∈ ingressPart r ∨
        part ∈ routes ∨ ∃ il ∈ r.ingresslinks, (ingresslinkToBnk repr il, some il.ns) = part := by
  simp only [allParts, mem_append, mem_map, or_assoc]

theorem translateCisToBnk_eq_ok {result : CisResult} (h : translateCisToBnk repr r = .ok result) :
    ∃ declarations routes layerFour,
      List.Forall₂ (fun decl part ↦ as3Part repr decl = .ok part) r.as3Declarations declarations ∧
      List.Forall₂ (fun route part ↦ ∃ front, routeToBnk r.targetNamespace route = .ok front ∧
        part = (front, some route.ns)) r.routes routes ∧
      List.Forall₂ (fun ts l ↦ ∃ gatewayName gwNamespace,
        transportserverToRoute repr gatewayName gwNamespace ts = .ok l) r.transportservers layerFour ∧
      result.emitted =
        emittedOf r (allParts repr r declarations routes) (layerFour.flatMap (·.2)) := by
  obtain ⟨parts, hparts, h⟩ := bind_eq_ok.mp h
  obtain ⟨layerFour, hlayerFour, h⟩ := bind_eq_ok.mp h
  obtain ⟨declarations, hdeclarations, hparts⟩ := bind_eq_ok.mp hparts
  obtain ⟨routes, hroutes, hparts⟩ := bind_eq_ok.mp hparts
  cases hparts
  cases h
  refine ⟨declarations, routes, layerFour, mapM_eq_ok.mp hdeclarations,
    (mapM_eq_ok.mp hroutes).imp fun route part hpart ↦ ?_,
    (mapM_eq_ok.mp hlayerFour).imp fun ts l hl ↦ ⟨_, _, hl⟩, ?_⟩
  · obtain ⟨front, hfront, hpart⟩ := bind_eq_ok.mp hpart
    exact ⟨front, hfront, (Except.ok.inj hpart).symm⟩
  · simp only [CisResult.emitted, buildHttproute, Collected.foldl_add, nil_append]
    rfl

section Parts

variable {parts : List (FrontHalf × Option String)} {entries : List UnmappedEntry}
  {part : FrontHalf × Option String} (hpart : part ∈ parts)

include hpart

theorem rule_mem_emittedOf {rule : RouteRule} (h : rule ∈ part.1.rules) :
    rule ∈ (emittedOf r parts entries).rules :=
  mem_or_placeholder (mem_flatMap.mpr ⟨part, hpart, h⟩)

theorem entry_mem_emittedOf {e : UnmappedEntry} (h : e ∈ part.1.unmapped) :
    e ∈ (emittedOf r parts entries).unmapped :=
  mem_append_left _ (mem_append_left _ (mem_flatMap.mpr ⟨part, hpart, h⟩))

end Parts

/-! ### Pools -/

theorem IntOrString.number_eq {pool : Pool} {n : Int} (h : n ∈ pool.number?) :
    IntOrString.number pool.servicePort? = n := by
  unfold Pool.number? at h
  split at h
  · next k hport =>
    obtain ⟨hk, hne⟩ := Option.filter_eq_some_iff.mp h
    cases hk
    rw [hport, IntOrString.number, if_neg (by simpa using hne)]
  · cases h

theorem coversPool_iff {m : Emitted} {vs : VirtualServer} {pool : Pool} (hpool : pool ∈ vs.pools)
    (hrules : ∀ rule ∈ (virtualserverToHttproute repr r.tlsprofiles r.targetNamespace vs).rules,
      rule ∈ m.rules)
    (hentries : ∀ e ∈ (virtualserverToHttproute repr r.tlsprofiles r.targetNamespace vs).unmapped,
      e ∈ m.unmapped) :
    m.CoversPool vs pool ↔ pool.service?.isSome = true := by
  unfold Emitted.CoversPool
  have hservices {service : String} (h : pool.service? = some service) :
      (pool, service) ∈ vs.services := by
    refine mem_filterMap.mpr ⟨pool, hpool, ?_⟩
    rw [h]
    rfl
  split
  · next portName hport =>
    refine and_iff_left_of_imp fun hsome ↦ ?_
    obtain ⟨service, hservice⟩ := Option.isSome_iff_exists.mp hsome
    refine hentries _ (mem_append_left _ (mem_append_left _ (mem_append_right _ ?_)))
    refine mem_flatMap.mpr ⟨_, hservices hservice, mem_append_left _ ?_⟩
    rw [hport]
    exact mem_singleton_self _
  · constructor
    · rintro ⟨service, hservice, -⟩
      exact Option.isSome_of_mem hservice
    · intro hsome
      obtain ⟨service, hservice⟩ := Option.isSome_iff_exists.mp hsome
      refine ⟨service, hservice, _, hrules _ (mem_map_of_mem (hservices hservice)), ?_⟩
      exact ⟨mem_singleton_self _, _, mem_singleton_self _, rfl,
        fun n hn ↦ IntOrString.number_eq hn⟩

theorem coversPool_emittedOf_iff {declarations routes : List (FrontHalf × Option String)}
    {entries : List UnmappedEntry} {vs : VirtualServer} (hvs : vs ∈ r.virtualservers) {pool : Pool}
    (hpool : pool ∈ vs.pools) :
    (emittedOf r (allParts repr r declarations routes) entries).CoversPool vs pool ↔
      pool.service?.isSome = true := by
  have hpart : (virtualserverToHttproute repr r.tlsprofiles r.targetNamespace vs, some vs.ns) ∈
      allParts repr r declarations routes :=
    mem_allParts.mpr (.inl (mem_map_of_mem hvs))
  exact coversPool_iff hpool (fun rule hrule ↦ rule_mem_emittedOf hpart hrule)
    (fun e he ↦ entry_mem_emittedOf hpart he)

/-! ### Listeners -/

theorem namedBySecret_secretListener (secretName : String) (host : Option String) (ns : String) :
    (secretListener secretName host ns).NamedBySecret := by
  intro cert hcert
  rw [mem_singleton.mp hcert]
  simp [Listener.hasKey, secretListener]

theorem namedBySecret_resolveTlsprofile {profiles : List TlsProfile} {vs : VirtualServer}
    {profileName : String} {l : Listener}
    (h : l ∈ (resolveTlsprofile repr profiles vs profileName).1) : l.NamedBySecret := by
  unfold resolveTlsprofile at h
  split at h
  · cases h
  · split at h
    · cases h
    · split at h
      · cases h
      · rw [mem_singleton.mp h]
        exact namedBySecret_secretListener _ _ _

theorem namedBySecret_virtualserver {profiles : List TlsProfile} {target : Option String}
    {vs : VirtualServer} {l : Listener}
    (h : l ∈ (virtualserverToHttproute repr profiles target vs).tlsListeners) :
    l.NamedBySecret := by
  simp only [virtualserverToHttproute] at h
  cases htls : vs.tls with
  | none =>
    rw [htls] at h
    cases h
  | some tls =>
    rw [htls, Option.elim_some, clientTls] at h
    split at h
    · rw [mem_singleton.mp h]
      exact namedBySecret_secretListener _ _ _
    · exact namedBySecret_resolveTlsprofile h
    · split at h <;> cases h

theorem namedBySecret_routeTermination {route : OpenShiftRoute} {l : Listener}
    (h : l ∈ (routeTermination route).1) : l.NamedBySecret := by
  simp only [routeTermination] at h
  split at h
  · cases h
  · split at h
    · split at h
      · cases h
      · rw [mem_singleton.mp h]
        exact nofun
    · cases h

theorem namedBySecret_route {target : Option String} {route : OpenShiftRoute} {front : FrontHalf}
    (hfront : routeToBnk target route = .ok front) {l : Listener} (h : l ∈ front.tlsListeners) :
    l.NamedBySecret := by
  obtain ⟨port, -, hfront⟩ := bind_eq_ok.mp hfront
  dsimp only at hfront
  split at hfront
  · cases hfront
    cases h
  · cases hfront
    exact namedBySecret_routeTermination h

theorem namedBySecret_ingressPart {part : FrontHalf × Option String} (hpart : part ∈ ingressPart r)
    {l : Listener} (h : l ∈ part.1.tlsListeners) : l.NamedBySecret := by
  unfold ingressPart at hpart
  split at hpart
  · cases hpart
  · rw [mem_singleton.mp hpart, ingressToHttproute, collectIngresses_eq] at h
    obtain rfl | h := mem_cons.mp h
    · trivial
    · obtain ⟨ing, -, h⟩ := mem_flatMap.mp (mem_of_find?_eq_some (mem_addListener.mp h))
      exact namedBySecret_of_mem_listeners h

theorem find?_ingressPart (name : String) :
    ((ingressPart r).flatMap (·.1.tlsListeners)).find? (Listener.hasKey name 443) =
      (r.ingresses.flatMap (·.listeners)).find? (Listener.hasKey name 443) := by
  have hdefault : defaultListener.hasKey name 443 = false := by
    simp [Listener.hasKey, defaultListener]
  unfold ingressPart
  split
  · next h =>
    rw [List.isEmpty_iff.mp h]
    rfl
  · rw [flatMap_singleton, ingressToHttproute, collectIngresses_eq, buildListeners,
      find?_cons_of_neg (by simp [hdefault]), find?_addListener, find?_nil, Option.none_or]

theorem servesFirst_emittedOf {declarations routes : List (FrontHalf × Option String)}
    {entries : List UnmappedEntry}
    (hdeclarations : List.Forall₂ (fun decl part ↦ as3Part repr decl = .ok part) r.as3Declarations
      declarations)
    (hroutes : List.Forall₂ (fun route part ↦ ∃ front,
      routeToBnk r.targetNamespace route = .ok front ∧ part = (front, some route.ns)) r.routes routes)
    {ing : Ingress} (hing : ing ∈ r.ingresses) :
    ServesFirst (emittedOf r (allParts repr r declarations routes) entries)
      (r.secretListeners repr) ing := by
  have hnone : declarations.flatMap (·.1.tlsListeners) = [] := by
    rw [flatMap_eq_nil_iff]
    intro part hpart
    obtain ⟨decl, -, hdecl⟩ := exists_of_forall₂ hdeclarations.flip hpart
    obtain ⟨res, -, hdecl⟩ := bind_eq_ok.mp hdecl
    cases hdecl
    rfl
  have hlinks : (r.ingresslinks.map fun il ↦ (ingresslinkToBnk repr il, some il.ns)).flatMap
      (·.1.tlsListeners) = [] := by
    rw [flatMap_map, flatMap_eq_nil_iff]
    exact fun il _ ↦ rfl
  intro entry hentry secretName hsecret host
  rw [Emitted.Serves, emittedOf, allParts]
  dsimp only
  rw [flatMap_append, flatMap_append, flatMap_append, flatMap_append, hnone,
    hlinks, append_nil, append_nil]
  rw [serves_buildListeners_iff]
  · -- The own listener of the secret is among those of the Ingresses, so it is found before Routes.
    have hown : (r.secretListeners repr).find?
        (Listener.hasKey ("https-" ++ takeText 20 secretName) 443) ≠ none := by
      intro hnone
      refine find?_eq_none.mp hnone (tlsListener ing entry secretName) ?_ ?_
      · refine mem_append_right _ (mem_flatMap.mpr ⟨ing, hing, ?_⟩)
        refine mem_filterMap.mpr ⟨entry, hentry, ?_⟩
        rw [Option.mem_def.mp hsecret]
        rfl
      · simp [Listener.hasKey, tlsListener]
    rw [CisRequest.secretListeners] at hown ⊢
    rw [find?_append, find?_append, find?_ingressPart, ← find?_append]
    dsimp only
    rw [Option.or_of_isSome (Option.isSome_iff_ne_none.mpr hown)]
  · intro l hl
    rw [mem_append, mem_append] at hl
    obtain (hl | hl) | hl := hl
    · obtain ⟨part, hpart, hl⟩ := mem_flatMap.mp hl
      obtain ⟨vs, -, rfl⟩ := mem_map.mp hpart
      exact namedBySecret_virtualserver hl
    · obtain ⟨part, hpart, hl⟩ := mem_flatMap.mp hl
      exact namedBySecret_ingressPart hpart hl
    · obtain ⟨part, hpart, hl⟩ := mem_flatMap.mp hl
      obtain ⟨route, -, front, hfront, rfl⟩ := exists_of_forall₂ hroutes.flip hpart
      exact namedBySecret_route hfront hl

/-! ### All source objects -/

theorem exists_ingressPart {ing : Ingress} (hing : ing ∈ r.ingresses) :
    ∃ part, ingressPart r = [part] ∧
      (∀ ing ∈ r.ingresses, ∀ rule ∈
        ing.routeRules ((ingressNamespace r.targetNamespace r.ingresses).getD ""),
        rule ∈ part.1.rules) ∧
      part.1.unmapped = (r.ingresses.flatMap fun ing ↦ ing.flags "cis-bigip"
        ((ingressNamespace r.targetNamespace r.ingresses).getD "")) ++
          if (r.ingresses.flatMap fun ing ↦
            ing.routeRules ((ingressNamespace r.targetNamespace r.ingresses).getD "")).isEmpty
          then [noRulesEntry] else [] := by
  rw [ingressPart, if_neg (by simpa using ne_nil_of_mem hing)]
  refine ⟨_, rfl, fun ing hing rule hrule ↦ ?_, ?_⟩
  · rw [ingressToHttproute, collectIngresses_eq]
    exact mem_or_placeholder (mem_flatMap.mpr ⟨ing, hing, hrule⟩)
  · rw [ingressToHttproute, collectIngresses_eq]

theorem coversService_of_kept {decl : As3Declaration} {part : FrontHalf × Option String}
    (hdecl : as3Part repr decl = .ok part) {m : Emitted}
    (hrules : ∀ rule ∈ part.1.rules, rule ∈ m.rules)
    (hentries : ∀ e ∈ part.1.unmapped, e ∈ m.unmapped) {o : As3Object}
    (ho : o ∈ decl.objects repr) (hkept : o.Kept) :
    m.CoversService repr (o.source decl.source) o := by
  obtain ⟨res, hres, hdecl⟩ := bind_eq_ok.mp hdecl
  cases hdecl
  unfold As3Declaration.objects at ho
  unfold as3DeclarationToBnk at hres
  split at hres
  · next entry henvelope =>
    rw [henvelope] at ho
    cases ho
  · next adc henvelope =>
    rw [henvelope] at ho
    obtain ⟨walked, hwalked, hres⟩ := bind_eq_ok.mp hres
    cases hres
    obtain ⟨e, he, habout⟩ | ⟨members, hmembers, member, hmem, n, hn, hbackend⟩ :=
      as3Adc_covers hwalked ho hkept
    · exact .inl ⟨e, hentries e he, habout⟩
    · refine .inr ⟨members, hmembers, member, hmem, n, hn, as3Rule repr ⟨memberService member, n⟩,
        hrules _ (mem_map_of_mem hbackend), mem_singleton_self _, _,
        mem_singleton_self _, rfl, ?_⟩
      rintro k ⟨⟩
      rfl

theorem covered_of_nothingSkipped {result : CisResult} (h : translateCisToBnk repr r = .ok result)
    (hskip : r.NothingSkipped repr) (has3 : r.As3Kept repr) : r.Covered repr result.emitted := by
  obtain ⟨declarations, routes, layerFour, hdeclarations, hroutes, -, hresult⟩ :=
    translateCisToBnk_eq_ok h
  rw [hresult]
  refine ⟨fun ing hing ↦ ?_, fun vs hvs pool hpool ↦ ?_, fun decl hdecl o ho ↦ ?_⟩
  · obtain ⟨part, hpart, hrules, hunmapped⟩ := exists_ingressPart hing
    have hpart' : part ∈ allParts repr r declarations routes :=
      mem_allParts.mpr (.inr (.inr (.inl (hpart ▸ mem_singleton_self part))))
    refine coversIngress_of_kept "cis-bigip"
      ((ingressNamespace r.targetNamespace r.ingresses).getD "")
      (fun ing hing rule hrule ↦ rule_mem_emittedOf hpart' (hrules ing hing rule hrule))
      (fun ing hing e he ↦ entry_mem_emittedOf hpart' ?_) hing
      (servesFirst_emittedOf hdeclarations hroutes hing) (hskip.ingresses ing hing)
    rw [hunmapped]
    exact mem_append_left _ (mem_flatMap.mpr ⟨ing, hing, he⟩)
  · exact (coversPool_emittedOf_iff hvs hpool).mpr (hskip.pools vs hvs pool hpool)
  · obtain ⟨part, hpart, hdeclPart⟩ := exists_of_forall₂ hdeclarations hdecl
    have hpart' : part ∈ allParts repr r declarations routes := mem_allParts.mpr (.inr (.inl hpart))
    exact coversService_of_kept hdeclPart (fun rule hrule ↦ rule_mem_emittedOf hpart' hrule)
      (fun e he ↦ entry_mem_emittedOf hpart' he) ho (has3 decl hdecl o ho)

/-! ### The kinds of entries -/

/-- The entries are about objects of a kind. -/
def OfKind (kind : String) (es : List UnmappedEntry) : Prop := ∀ e ∈ es, e.sourceKind = kind

theorem ofKind_nil {kind : String} : OfKind kind [] := nofun

theorem ofKind_singleton {s : Source} {construct detail reason : String} :
    OfKind s.kind [s.unmapped construct detail reason] := by
  intro e he
  rw [mem_singleton.mp he]
  rfl

theorem OfKind.append {kind : String} {as bs : List UnmappedEntry} (ha : OfKind kind as)
    (hb : OfKind kind bs) : OfKind kind (as ++ bs) := by
  intro e he
  exact (mem_append.mp he).elim (ha e) (hb e)

theorem ofKind_flatMap {α : Type} {kind : String} {xs : List α} {f : α → List UnmappedEntry}
    (h : ∀ x ∈ xs, OfKind kind (f x)) : OfKind kind (xs.flatMap f) := by
  intro e he
  obtain ⟨x, hx, he⟩ := mem_flatMap.mp he
  exact h x hx e he

theorem ofKind_ite {kind : String} {p : Prop} [Decidable p] {es : List UnmappedEntry}
    (h : OfKind kind es) : OfKind kind (if p then es else []) := by
  split
  · exact h
  · exact ofKind_nil

theorem ofKind_fieldEntry {s : Source} {fields : List (String × Value)}
    {construct key reason : String} : OfKind s.kind (fieldEntry repr s fields construct key reason) :=
  ofKind_ite ofKind_singleton

theorem ofKind_policyEntries {s : Source} {fields : List (String × Value)} {create generic : String} :
    OfKind s.kind (policyEntries repr s fields create generic) :=
  ofKind_flatMap fun _ _ ↦ ofKind_fieldEntry

theorem ofKind_iruleEntries {s : Source} {fields : List (String × Value)} {reason : String} :
    OfKind s.kind (iruleEntries repr s fields reason) := by
  intro e he
  obtain ⟨irule, -, rfl⟩ := mem_map.mp he
  rfl

theorem ofKind_collectVsUnmapped (vs : VirtualServer) :
    OfKind "VirtualServer" (collectVsUnmapped repr vs) := by
  refine ((((((OfKind.append ?_ ?_).append ?_).append ?_).append ?_).append ?_).append ?_).append ?_
  · exact ofKind_iruleEntries (s := vs.source)
  · exact ofKind_flatMap fun _ _ ↦ ofKind_fieldEntry (s := vs.source)
  · exact ofKind_fieldEntry (s := vs.source)
  · exact ofKind_ite (ofKind_singleton (s := vs.source))
  · exact ofKind_flatMap fun _ _ ↦ ofKind_fieldEntry (s := vs.source)
  · exact ofKind_flatMap fun _ _ ↦ ofKind_fieldEntry (s := vs.source)
  · exact ofKind_policyEntries (s := vs.source)
  · exact ofKind_flatMap fun _ _ ↦ ofKind_ite (ofKind_singleton (s := vs.source))

theorem ofKind_resolveTlsprofile (profiles : List TlsProfile) (vs : VirtualServer)
    (profileName : String) :
    OfKind "VirtualServer" (resolveTlsprofile repr profiles vs profileName).2 := by
  unfold resolveTlsprofile
  split
  · exact ofKind_singleton (s := vs.source)
  · split
    · exact ofKind_singleton (s := vs.source)
    · split
      · exact ofKind_singleton (s := vs.source)
      · exact ofKind_nil

theorem ofKind_virtualserver (profiles : List TlsProfile) (target : Option String)
    (vs : VirtualServer) :
    OfKind "VirtualServer" (virtualserverToHttproute repr profiles target vs).unmapped := by
  refine (((ofKind_collectVsUnmapped vs).append ?_).append ?_).append ?_
  · refine ofKind_flatMap fun p _ ↦ OfKind.append ?_ (ofKind_ite (ofKind_singleton (s := vs.source)))
    split
    · exact ofKind_singleton (s := vs.source)
    · exact ofKind_nil
  · cases vs.tls with
    | none => exact ofKind_nil
    | some tls =>
      rw [Option.elim_some, clientTls]
      split
      · exact ofKind_nil
      · exact ofKind_resolveTlsprofile _ _ _
      · split <;> exact ofKind_singleton (s := vs.source)
  · cases vs.tls with
    | none => exact ofKind_nil
    | some tls => exact ofKind_ite (ofKind_singleton (s := vs.source))

theorem ofKind_textPort {s : Source} {reason text : String} {port : Int × List UnmappedEntry}
    (h : textPort s reason text = .ok port) : OfKind s.kind port.2 := by
  unfold textPort at h
  split at h
  · cases hn : (Value.str text).number with
    | error e =>
      rw [hn] at h
      cases h
    | ok n =>
      rw [hn] at h
      cases h
      exact ofKind_nil
  · cases h
    exact ofKind_singleton

theorem ofKind_routePort {route : OpenShiftRoute} {port : Int × List UnmappedEntry}
    (h : routePort route = .ok port) : OfKind "Route" port.2 := by
  unfold routePort at h
  split at h
  · cases h
    exact ofKind_nil
  · cases h
    exact ofKind_nil
  · exact ofKind_textPort (s := route.source) h

theorem ofKind_routeTermination (route : OpenShiftRoute) :
    OfKind "Route" (routeTermination route).2 := by
  simp only [routeTermination]
  split
  · split <;> exact ofKind_singleton (s := route.source)
  · split
    · split
      · exact (ofKind_singleton (s := route.source)).append (ofKind_singleton (s := route.source))
      · exact (ofKind_singleton (s := route.source)).append (ofKind_singleton (s := route.source))
    · exact ofKind_nil

theorem ofKind_route {target : Option String} {route : OpenShiftRoute} {front : FrontHalf}
    (h : routeToBnk target route = .ok front) : OfKind "Route" front.unmapped := by
  obtain ⟨port, hport, h⟩ := bind_eq_ok.mp h
  have hwildcard : OfKind "Route" (wildcardEntries route) :=
    ofKind_ite (ofKind_singleton (s := route.source))
  dsimp only at h
  split at h
  · cases h
    exact (hwildcard.append (ofKind_routePort hport)).append (ofKind_singleton (s := route.source))
  · cases h
    refine ((hwildcard.append (ofKind_routePort hport)).append
      (ofKind_routeTermination route)).append ?_
    cases nonEmpty? route.toName with
    | none => exact ofKind_nil
    | some service => exact ofKind_ite (ofKind_singleton (s := route.source))

theorem ofKind_ingresslink (il : IngressLink) :
    OfKind "IngressLink" (ingresslinkToBnk repr il).unmapped := by
  refine (((OfKind.append ?_ ?_).append ?_).append ?_).append ?_
  · exact ofKind_fieldEntry (s := il.source)
  · exact ofKind_singleton (s := il.source)
  · exact ofKind_iruleEntries (s := il.source)
  · exact ofKind_ite (ofKind_singleton (s := il.source))
  · exact ofKind_policyEntries (s := il.source)

theorem ofKind_transportPort {ts : TransportServer} {port : Int × List UnmappedEntry}
    (h : transportPort ts = .ok port) : OfKind "TransportServer" port.2 := by
  unfold transportPort at h
  split at h
  · cases h
    exact ofKind_nil
  · cases h
    exact ofKind_nil
  · exact ofKind_textPort (s := ts.source) h

theorem ofKind_transportserver {gatewayName gwNamespace : String} {ts : TransportServer}
    {l : Option TcpUdpRoute × List UnmappedEntry}
    (h : transportserverToRoute repr gatewayName gwNamespace ts = .ok l) :
    OfKind "TransportServer" l.2 := by
  unfold transportserverToRoute at h
  dsimp only at h
  split at h
  · cases h
    exact ofKind_singleton (s := ts.source)
  · split at h
    · cases h
      exact ofKind_singleton (s := ts.source)
    · obtain ⟨port, hport, h⟩ := bind_eq_ok.mp h
      cases h
      refine (((ofKind_transportPort hport).append ?_).append ?_).append ?_
      · exact ofKind_iruleEntries (s := ts.source)
      · exact ofKind_policyEntries (s := ts.source)
      · exact ofKind_ite (ofKind_singleton (s := ts.source))

/-! ### What is not lost -/

theorem portByName_of_emittedOf {declarations routes : List (FrontHalf × Option String)}
    {layerFour : List (Option TcpUdpRoute × List UnmappedEntry)}
    (hdeclarations : List.Forall₂ (fun decl part ↦ as3Part repr decl = .ok part) r.as3Declarations
      declarations)
    (hroutes : List.Forall₂ (fun route part ↦ ∃ front,
      routeToBnk r.targetNamespace route = .ok front ∧ part = (front, some route.ns)) r.routes routes)
    (hlayerFour : List.Forall₂ (fun ts l ↦ ∃ gatewayName gwNamespace,
      transportserverToRoute repr gatewayName gwNamespace ts = .ok l) r.transportservers layerFour)
    {ing : Ingress} (hing : ing ∈ r.ingresses) {portName : String}
    (h : ing.source.portByName portName ∈
      (emittedOf r (allParts repr r declarations routes) (layerFour.flatMap (·.2))).unmapped) :
    ∃ other ∈ r.ingresses, ing.source.portByName portName ∈ other.flags "cis-bigip"
      ((ingressNamespace r.targetNamespace r.ingresses).getD "") := by
  -- All other entries are about objects of other kinds, or have another reason.
  have hkind {kind : String} {es : List UnmappedEntry} (hes : OfKind kind es)
      (hne : "Ingress" ≠ kind) : ing.source.portByName portName ∉ es := fun hmem ↦ hne (hes _ hmem)
  obtain h | h := mem_append.mp h
  · obtain h | h := mem_append.mp h
    · obtain ⟨part, hpart, h⟩ := mem_flatMap.mp h
      obtain hpart | hpart | hpart | hpart | ⟨il, -, rfl⟩ := mem_allParts.mp hpart
      · obtain ⟨vs, -, rfl⟩ := mem_map.mp hpart
        exact absurd h (hkind (ofKind_virtualserver _ _ vs) (by decide))
      · obtain ⟨decl, -, hdecl⟩ := exists_of_forall₂ hdeclarations.flip hpart
        obtain ⟨res, hres, hdecl⟩ := bind_eq_ok.mp hdecl
        cases hdecl
        exact absurd ⟨_, _, rfl⟩ (as3DeclarationToBnk_not_namesPort hres h)
      · obtain ⟨part', hpart', -, hunmapped⟩ := exists_ingressPart hing
        rw [hpart', mem_singleton] at hpart
        rw [hpart, hunmapped] at h
        obtain h | h := mem_append.mp h
        · exact mem_flatMap.mp h
        · split at h
          · exact absurd (congrArg UnmappedEntry.construct (mem_singleton.mp h))
              (show "port_by_name" ≠ "no_rules" by decide)
          · cases h
      · obtain ⟨route, -, front, hfront, rfl⟩ := exists_of_forall₂ hroutes.flip hpart
        exact absurd h (hkind (ofKind_route hfront) (by decide))
      · exact absurd h (hkind (ofKind_ingresslink il) (by decide))
    · split at h
      · exact absurd (congrArg UnmappedEntry.construct (mem_singleton.mp h))
          (show "port_by_name" ≠ "no_rules" by decide)
      · cases h
  · obtain ⟨l, hl, h⟩ := mem_flatMap.mp h
    obtain ⟨ts, -, gatewayName, gwNamespace, hts⟩ := exists_of_forall₂ hlayerFour.flip hl
    exact absurd h (hkind (ofKind_transportserver hts) (by decide))

theorem nothingSkipped_of_covered {result : CisResult} (h : translateCisToBnk repr r = .ok result)
    (hcovered : r.Covered repr result.emitted) : r.NothingSkipped repr := by
  obtain ⟨declarations, routes, layerFour, hdeclarations, hroutes, hlayerFour, hresult⟩ :=
    translateCisToBnk_eq_ok h
  rw [hresult] at hcovered
  refine ⟨fun ing hing ↦ ?_, fun vs hvs pool hpool ↦ ?_⟩
  · exact kept_of_coversIngress "cis-bigip"
      ((ingressNamespace r.targetNamespace r.ingresses).getD "")
      (fun portName hmem ↦ portByName_of_emittedOf hdeclarations hroutes hlayerFour hing hmem)
      (servesFirst_emittedOf hdeclarations hroutes hing) (hcovered.ingresses ing hing)
  · exact (coversPool_emittedOf_iff hvs hpool).mp (hcovered.pools vs hvs pool hpool)

end

/-! ### Both translations -/

def declarationOf (serviceName : String) : As3Declaration :=
  { sourceName := some "shop"
    items := [("class", .str "ADC"), ("red", .dict [("class", .str "Tenant"),
      ("web", .dict [("class", .str "Application"),
        (serviceName, .dict [("class", .str "Service_HTTP"), ("pool", .str "web_pool")]),
        ("web_pool", .dict [("class", .str "Pool"),
          ("members", .list [.dict [("serviceAddress", .str "web"), ("servicePort", .int 8080)]])])])])] }

def smallRequest : CisRequest :=
  { as3Declarations := [declarationOf "frontend"]
    virtualservers := [{ name := "vs", pools := [{ service := some "api" }] }]
    ingresses := [{
      name := "site", tls := [{ secretName := some "site-tls", hosts := ["site.test"] }]
      rules := [{ host := some "site.test"
                  paths := [{ backend := { name := some "site", portName := some "http" } }] }] }] }

/-- An HTTPRoute that sends a tenth of its requests to another service. -/
def weightedRequest : TranslateRequest :=
  { proxyType := "envoy", sourceKind := "GatewayClass"
    sourceHttproutes := [{ rules := [{
      backendRefs := [{ name := some "web", port := some 80, weight := some 90 },
        { name := some "canary", port := some 80, weight := some 10 }] }] }] }

end BnkForge.Proxy
