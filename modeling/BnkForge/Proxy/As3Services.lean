import BnkForge.Lib.ExceptResult
import BnkForge.Proxy.As3

/-!
# The services of AS3 declarations

What the walk over a declaration gives for each service in it, where it does not raise: a backend or an
entry under the name of the service, unless the service is passed over.
-/

namespace BnkForge.Proxy

open Python ExceptResult List

/-! ### The services -/

structure As3Object where
  tenantName : String
  appName : String
  name : String
  app : Value
  object : Value

def isServiceClass : Value → Bool
  | .str cls => "Service_".toList.isPrefixOf cls.toList
  | _ => false

/-- The services of a declaration, whatever their names. -/
def as3Objects (adc : Value) : List As3Object :=
  (adc.items.filter fun t ↦ t.2.isDict && (t.2.get "class").isText "Tenant").flatMap fun t ↦
    (t.2.items.filter fun a ↦ a.2.isDict && (a.2.get "class").isText "Application").flatMap fun a ↦
      (a.2.items.filter fun o ↦ o.2.isDict && isServiceClass (o.2.get "class")).map fun o ↦
        ⟨t.1, a.1, o.1, a.2, o.2⟩

/-- The name of the pool that a reference is to, by itself or in `use`. -/
def poolNameOf : Value → Option String
  | .str name => some name
  | .dict items =>
    match ((Value.dict items).get "use").orElse (.str "") with
    | .str name => some name
    | _ => none
  | _ => none

namespace As3Object

def source (s : Source) (o : As3Object) : Source := serviceSource s o.tenantName o.appName o.name

def poolName (o : As3Object) : Option String := poolNameOf (o.object.get "pool")

def members (o : As3Object) : Value :=
  match o.poolName.bind fun name ↦ (poolsInApp o.app).lookup name with
  | some pool => (pool.get "members").orElse (.list [])
  | none => .list []

end As3Object

def memberNumber (member : Value) : Option Int :=
  match portNameOf (memberPort member) with
  | some _ => none
  | none => (memberPort member).number.toOption

def isPlaceholderAddress (vaddr : Value) : Bool :=
  match addressOf vaddr with
  | .ok (.str address) => address == "0.0.0.0" || address == "" || ['/'].isPrefixOf address.toList
  | _ => false

def As3Object.Flagged (o : As3Object) : Prop :=
  (∃ vaddrs, ((o.object.get "virtualAddresses").orElse (.list [])).iterate = .ok vaddrs ∧
    ∃ vaddr ∈ vaddrs, isPlaceholderAddress vaddr = true) ∨
  (o.object.get "iRules").truthy = true ∨
  (∃ key ∈ ["policyWAF", "profileBotDefense", "policyFirewall"], (o.object.get key).truthy = true) ∨
  serviceClass? (o.object.get "class") = some .https ∧
    ∃ key ∈ ["clientTLS", "serverTLS"], (o.object.get key).truthy = true

/-- A service that is not passed over: it has a name and a class that is read, and a member of its pool
gives a service or addresses, or it is flagged for another reason. -/
structure As3Object.Kept (o : As3Object) : Prop where
  tenantName : o.tenantName ∉ as3MetaKeys
  appName : o.appName ∉ as3AppMetaKeys
  name : o.name ∉ as3AppMetaKeys
  cls : (serviceClass? (o.object.get "class")).isSome = true
  members : (∃ name ∈ o.poolName, ['/'].isPrefixOf name.toList = true) ∨
    o.members.truthy = false ∨
    (∃ members, o.members.iterate = .ok members ∧ ∃ member ∈ members, member.isDict = true ∧
      ((member.get "serverAddresses").truthy = true ∨ (memberService member).truthy = true)) ∨
    o.Flagged

def UnmappedEntry.IsAbout (e : UnmappedEntry) (s : Source) : Prop :=
  e.sourceKind = s.kind ∧ e.sourceName = s.name ∧ e.sourceNamespace = s.ns

theorem Source.unmapped_isAbout (s : Source) (construct detail reason : String) :
    (s.unmapped construct detail reason).IsAbout s :=
  ⟨rfl, rfl, rfl⟩

/-! ### Members -/

theorem iterate_ne_nil {v : Value} {items : List Value} (h : v.iterate = .ok items)
    (htruthy : v.truthy = true) : items ≠ [] := by
  rintro rfl
  cases v with
  | list items =>
    cases h
    simp [Value.truthy] at htruthy
  | str s =>
    have hs : s.toList = [] := by simpa [Value.iterate] using h
    simp [Value.truthy, String.toList_eq_nil_iff.mp hs] at htruthy
  | dict items =>
    have hitems : items = [] := by simpa [Value.iterate] using h
    simp [Value.truthy, hitems] at htruthy
  | _ => cases h

section

variable {repr : Value → String} {s : Source}

theorem serviceMember_spec {member : Value} {m : MembersResult}
    (h : serviceMember s member = .ok m) :
    (∃ e ∈ m.unmapped, e.IsAbout s) ∨
      m.backend = some (memberService member) ∧ memberNumber member = some m.port := by
  cases hname : portNameOf (memberPort member) with
  | some portName =>
    rw [serviceMember, hname] at h
    cases h
    exact .inl ⟨_, mem_singleton_self _, s.unmapped_isAbout ..⟩
  | none =>
    rw [serviceMember, hname] at h
    obtain ⟨n, hn, hm⟩ := bind_eq_ok.mp h
    cases hm
    refine .inr ⟨rfl, ?_⟩
    rw [memberNumber, hname, hn]
    rfl

theorem readMembers_spec {members : List Value} {m : MembersResult}
    (h : readMembers repr s members = .ok m)
    (hmember : ∃ member ∈ members, member.isDict = true ∧
      ((member.get "serverAddresses").truthy = true ∨ (memberService member).truthy = true)) :
    (∃ e ∈ m.unmapped, e.IsAbout s) ∨
      ∃ member ∈ members, m.backend = some (memberService member) ∧
        memberNumber member = some m.port := by
  induction members with
  | nil =>
    obtain ⟨member, hmem, -⟩ := hmember
    cases hmem
  | cons member members ih =>
    simp only [mem_cons, exists_eq_or_imp] at hmember ⊢
    rw [readMembers] at h
    split at h
    · next hdict =>
      have hrest := hmember.resolve_left fun hhead ↦ by simp [hhead.1] at hdict
      exact (ih h hrest).imp_right .inr
    · split at h
      · next haddresses =>
        obtain ⟨ips, hips, hm⟩ := bind_eq_ok.mp h
        cases hm
        obtain ⟨ip, hip⟩ := exists_mem_of_ne_nil _ (iterate_ne_nil hips haddresses)
        exact .inl ⟨_, mem_map_of_mem hip, s.unmapped_isAbout ..⟩
      · split at h
        · exact (serviceMember_spec h).imp_right .inl
        · next haddresses hservice =>
          have hrest := hmember.resolve_left fun hhead ↦ hhead.2.elim haddresses hservice
          exact (ih h hrest).imp_right .inr

/-! ### One service -/

theorem addressEntries_of_placeholder {vaddr : Value} {es : List UnmappedEntry}
    (h : addressEntries repr s vaddr = .ok es) (hplaceholder : isPlaceholderAddress vaddr = true) :
    ∃ e ∈ es, e.IsAbout s := by
  obtain ⟨address, haddress, h⟩ := bind_eq_ok.mp h
  rw [isPlaceholderAddress, haddress] at hplaceholder
  cases address with
  | str address =>
    dsimp only at h
    split at h
    · cases h
      exact ⟨_, mem_singleton_self _, s.unmapped_isAbout ..⟩
    · next hnot =>
      have hslash : ['/'].isPrefixOf address.toList = true :=
        ((Bool.or_eq_true _ _).mp hplaceholder).resolve_left hnot
      obtain ⟨starts, hstarts, h⟩ := bind_eq_ok.mp h
      cases h
      cases hstarts
      rw [show "/".toList = ['/'] from rfl, hslash]
      exact ⟨_, mem_singleton_self _, s.unmapped_isAbout ..⟩
  | _ => cases hplaceholder

theorem resolvePool_inr {pools : List (String × Value)} {poolRef : Value} {e : UnmappedEntry}
    (h : resolvePool s pools poolRef = .ok (.inr e)) : e.IsAbout s := by
  unfold resolvePool at h
  split at h
  · split at h
    · cases h
      exact s.unmapped_isAbout ..
    · cases h
  · split at h
    · split at h
      · cases h
        exact s.unmapped_isAbout ..
      · cases h
    · cases h
  · cases h

theorem resolvePool_inl {pools : List (String × Value)} {poolRef pool : Value}
    (h : resolvePool s pools poolRef = .ok (.inl pool)) :
    pool = ((poolNameOf poolRef).bind fun name ↦ pools.lookup name).getD (.dict []) ∧
      ∀ name ∈ poolNameOf poolRef, ['/'].isPrefixOf name.toList = false := by
  have hsome {name : String} (hname : poolNameOf poolRef = some name)
      (hslash : ¬ ['/'].isPrefixOf name.toList = true) :
      ((pools.lookup name).getD (.dict []) =
        ((poolNameOf poolRef).bind fun name ↦ pools.lookup name).getD (.dict [])) ∧
      ∀ name ∈ poolNameOf poolRef, ['/'].isPrefixOf name.toList = false := by
    rw [hname, Option.bind_some]
    refine ⟨rfl, fun name' hname' ↦ ?_⟩
    cases hname'
    exact Bool.eq_false_iff.mpr hslash
  unfold resolvePool at h
  cases poolRef with
  | str name =>
    dsimp only at h
    split at h
    · cases h
    · next hslash =>
      cases h
      exact hsome rfl hslash
  | dict items =>
    dsimp only at h
    split at h
    · next name hname =>
      split at h
      · cases h
      · next hslash =>
        cases h
        refine hsome ?_ hslash
        rw [poolNameOf, hname]
    · cases h
  | _ =>
    cases h
    exact ⟨rfl, nofun⟩

theorem members_of_resolvePool {o : As3Object} {pool : Value}
    (h : resolvePool s (poolsInApp o.app) (o.object.get "pool") = .ok (.inl pool)) :
    (pool.get "members").orElse (.list []) = o.members := by
  rw [(resolvePool_inl h).1, As3Object.members, As3Object.poolName]
  split
  · next found hfound => rw [hfound, Option.getD_some]
  · next hnone =>
    rw [hnone]
    rfl

theorem finishService_of_backend (repr : Value → String) (s : Source) (cls : ServiceClass)
    (vs : Value) (vaddrs : List Value) {m : MembersResult} {service : Value}
    (h : m.backend = some service) :
    (∃ e ∈ (finishService repr s cls vs vaddrs m).unmapped, e.IsAbout s) ∨
      ⟨service, m.port⟩ ∈ (finishService repr s cls vs vaddrs m).backends := by
  obtain ⟨backend, port, unmapped⟩ := m
  cases h
  cases cls with
  | http => exact .inr (mem_singleton_self _)
  | https => exact .inr (mem_singleton_self _)
  | tcp => exact .inl ⟨_, mem_singleton_self _, s.unmapped_isAbout ..⟩
  | udp => exact .inl ⟨_, mem_singleton_self _, s.unmapped_isAbout ..⟩

theorem finishService_of_tls (repr : Value → String) (s : Source) (vaddrs : List Value)
    (m : MembersResult) {vs : Value} {key : String} (hkey : key ∈ ["clientTLS", "serverTLS"])
    (h : (vs.get key).truthy = true) :
    ∃ e ∈ (finishService repr s .https vs vaddrs m).unmapped, e.IsAbout s := by
  have hunmapped : (finishService repr s .https vs vaddrs m).unmapped = as3TlsEntries repr s vs := by
    obtain ⟨backend, port, unmapped⟩ := m
    cases backend <;> rfl
  rw [hunmapped]
  refine ⟨?entry, mem_flatMap.mpr ⟨key, hkey, ?mem⟩, ?about⟩
  case mem =>
    dsimp only
    rw [if_pos h]
    exact mem_singleton_self _
  case about => exact s.unmapped_isAbout ..

theorem as3PolicyEntries_of_policy {vs : Value} {key : String}
    (hkey : key ∈ ["policyWAF", "profileBotDefense", "policyFirewall"])
    (h : (vs.get key).truthy = true) : ∃ e ∈ as3PolicyEntries repr s vs, e.IsAbout s := by
  refine ⟨?entry, mem_flatMap.mpr ⟨key, hkey, ?mem⟩, ?about⟩
  case mem =>
    dsimp only
    rw [if_pos h]
    exact mem_singleton_self _
  case about => exact s.unmapped_isAbout ..

theorem as3Service_eq_ok {pools : List (String × Value)} {cls : ServiceClass} {vs : Value}
    {res : As3Result} (h : as3Service repr s pools cls vs = .ok res) :
    ∃ vaddrs addresses irules irulesEntries flagged,
      ((vs.get "virtualAddresses").orElse (.list [])).iterate = .ok vaddrs ∧
      List.Forall₂ (fun v es ↦ addressEntries repr s v = .ok es) vaddrs addresses ∧
      ((vs.get "iRules").orElse (.list [])).iterate = .ok irules ∧
      List.Forall₂ (fun v e ↦ as3IruleEntry repr s v = .ok e) irules irulesEntries ∧
      flagged = addresses.flatten ++ irulesEntries ++ as3PolicyEntries repr s vs ∧
      ((∃ entry, resolvePool s pools (vs.get "pool") = .ok (.inr entry) ∧
          res = { unmapped := flagged ++ [entry] }) ∨
        ∃ pool members m, resolvePool s pools (vs.get "pool") = .ok (.inl pool) ∧
          ((pool.get "members").orElse (.list [])).iterate = .ok members ∧
          readMembers repr s members = .ok m ∧
          res = As3Result.append
            { unmapped := flagged ++ m.unmapped ++
                if m.backend.isNone && !((pool.get "members").orElse (.list [])).truthy then
                  [s.unmapped "no_pool_members" ("pool=" ++ repr (vs.get "pool"))
                    "Pool has no members. Cannot generate a backendRef."]
                else [] }
            (finishService repr s cls vs vaddrs m)) := by
  obtain ⟨vaddrs, hvaddrs, h⟩ := bind_eq_ok.mp h
  obtain ⟨addresses, haddresses, h⟩ := bind_eq_ok.mp h
  obtain ⟨irules, hirules, h⟩ := bind_eq_ok.mp h
  obtain ⟨irulesEntries, hentries, h⟩ := bind_eq_ok.mp h
  obtain ⟨resolved, hresolved, h⟩ := bind_eq_ok.mp h
  refine ⟨vaddrs, addresses, irules, irulesEntries, _, hvaddrs, mapM_eq_ok.mp haddresses, hirules,
    mapM_eq_ok.mp hentries, rfl, ?_⟩
  cases resolved with
  | inr entry =>
    cases h
    exact .inl ⟨entry, hresolved, rfl⟩
  | inl pool =>
    obtain ⟨members, hmembers, h⟩ := bind_eq_ok.mp h
    obtain ⟨m, hm, h⟩ := bind_eq_ok.mp h
    cases h
    exact .inr ⟨pool, members, m, hresolved, hmembers, hm, rfl⟩

theorem exists_flagged {o : As3Object} {vaddrs irules : List Value}
    {addresses : List (List UnmappedEntry)} {irulesEntries : List UnmappedEntry}
    (hvaddrs : ((o.object.get "virtualAddresses").orElse (.list [])).iterate = .ok vaddrs)
    (haddresses : List.Forall₂ (fun v es ↦ addressEntries repr s v = .ok es) vaddrs addresses)
    (hirules : ((o.object.get "iRules").orElse (.list [])).iterate = .ok irules)
    (hentries : List.Forall₂ (fun v e ↦ as3IruleEntry repr s v = .ok e) irules irulesEntries)
    (hflagged : o.Flagged) :
    (∃ e ∈ addresses.flatten ++ irulesEntries ++ as3PolicyEntries repr s o.object, e.IsAbout s) ∨
      serviceClass? (o.object.get "class") = some .https ∧
        ∃ key ∈ ["clientTLS", "serverTLS"], (o.object.get key).truthy = true := by
  obtain ⟨vaddrs', hvaddrs', vaddr, hvaddr, hplaceholder⟩ | hirule | ⟨key, hkey, hpolicy⟩ | htls :=
    hflagged
  · cases hvaddrs.symm.trans hvaddrs'
    obtain ⟨es, hes, hes'⟩ := exists_of_forall₂ haddresses hvaddr
    obtain ⟨e, he, habout⟩ := addressEntries_of_placeholder hes' hplaceholder
    refine .inl ⟨e, mem_append_left _ (mem_append_left _ ?_), habout⟩
    exact mem_flatten.mpr ⟨es, hes, he⟩
  · rw [Value.orElse, if_pos hirule] at hirules
    obtain ⟨irule, hmem⟩ := exists_mem_of_ne_nil _ (iterate_ne_nil hirules hirule)
    obtain ⟨e, he, he'⟩ := exists_of_forall₂ hentries hmem
    refine .inl ⟨e, mem_append_left _ (mem_append_right _ he), ?_⟩
    obtain ⟨text, -, hentry⟩ := bind_eq_ok.mp he'
    cases hentry
    exact s.unmapped_isAbout ..
  · obtain ⟨e, he, habout⟩ := as3PolicyEntries_of_policy hkey hpolicy
    exact .inl ⟨e, mem_append_right _ he, habout⟩
  · exact .inr htls

theorem As3Object.members_of_falsy {o : As3Object} (h : o.members.truthy = false) :
    o.members = .list [] := by
  unfold As3Object.members at h ⊢
  split at h
  · next pool _ =>
    cases htruthy : (pool.get "members").truthy with
    | true =>
      rw [Value.orElse, if_pos htruthy, htruthy] at h
      cases h
    | false => rw [Value.orElse, htruthy, if_neg Bool.false_ne_true]
  · rfl

def As3Result.Covers (res : As3Result) (s : Source) (o : As3Object) : Prop :=
  (∃ e ∈ res.unmapped, e.IsAbout s) ∨
    ∃ members, o.members.iterate = .ok members ∧ ∃ member ∈ members, ∃ n,
      memberNumber member = some n ∧ ⟨memberService member, n⟩ ∈ res.backends

theorem as3Service_covers {o : As3Object} (hkept : o.Kept) {cls : ServiceClass} {res : As3Result}
    (hcls : serviceClass? (o.object.get "class") = some cls)
    (h : as3Service repr s (poolsInApp o.app) cls o.object = .ok res) : res.Covers s o := by
  obtain ⟨vaddrs, addresses, irules, irulesEntries, flagged, hvaddrs, haddresses, hirules, hentries,
    rfl, ⟨entry, hpool, rfl⟩ | ⟨pool, members, m, hpool, hmembers, hm, rfl⟩⟩ := as3Service_eq_ok h
  · exact .inl ⟨entry, mem_append_right _ (mem_singleton_self _), resolvePool_inr hpool⟩
  · rw [members_of_resolvePool hpool] at hmembers ⊢
    obtain ⟨name, hname, hslash⟩ | hfalsy | ⟨members', hmembers', hmember⟩ | hflagged := hkept.members
    · rw [(resolvePool_inl hpool).2 name hname] at hslash
      cases hslash
    · rw [As3Object.members_of_falsy hfalsy] at hmembers ⊢
      cases hmembers
      cases hm
      exact .inl ⟨_, mem_append_left _ (mem_append_right _ (mem_singleton_self _)),
        s.unmapped_isAbout ..⟩
    · cases hmembers.symm.trans hmembers'
      obtain ⟨e, he, habout⟩ | ⟨member, hmem, hbackend, hnumber⟩ := readMembers_spec hm hmember
      · exact .inl ⟨e, mem_append_left _ (mem_append_left _ (mem_append_right _ he)),
          habout⟩
      · obtain ⟨e, he, habout⟩ | hmem' := finishService_of_backend repr s cls o.object vaddrs
          hbackend
        · exact .inl ⟨e, mem_append_right _ he, habout⟩
        · exact .inr ⟨members, hmembers, member, hmem, m.port, hnumber, mem_append_right _ hmem'⟩
    · obtain ⟨e, he, habout⟩ | ⟨hhttps, key, hkey, htls⟩ :=
        exists_flagged hvaddrs haddresses hirules hentries hflagged
      · exact .inl ⟨e, mem_append_left _ (mem_append_left _ (mem_append_left _ he)),
          habout⟩
      · cases hcls.symm.trans hhttps
        obtain ⟨e, he, habout⟩ := finishService_of_tls repr s vaddrs m hkey htls
        exact .inl ⟨e, mem_append_right _ he, habout⟩

/-! ### The walk -/

theorem As3Result.Covers.mono {res res' : As3Result} {o : As3Object} (h : res.Covers s o)
    (hbackends : ∀ b ∈ res.backends, b ∈ res'.backends)
    (hunmapped : ∀ e ∈ res.unmapped, e ∈ res'.unmapped) : res'.Covers s o := by
  obtain ⟨e, he, habout⟩ | ⟨members, hmembers, member, hmem, n, hn, hbackend⟩ := h
  · exact .inl ⟨e, hunmapped e he, habout⟩
  · exact .inr ⟨members, hmembers, member, hmem, n, hn, hbackends _ hbackend⟩

theorem foldl_append_eq (results : List As3Result) (acc : As3Result) :
    results.foldl As3Result.append acc =
      { backends := acc.backends ++ results.flatMap (·.backends)
        hostnames := acc.hostnames ++ results.flatMap (·.hostnames)
        unmapped := acc.unmapped ++ results.flatMap (·.unmapped) } := by
  induction results generalizing acc with
  | nil => simp
  | cons res results ih =>
    rw [foldl_cons, ih]
    simp [As3Result.append]

theorem covers_foldl_append {results : List As3Result} {res : As3Result} (hres : res ∈ results)
    {o : As3Object} (h : res.Covers s o) : (results.foldl As3Result.append {}).Covers s o := by
  rw [foldl_append_eq]
  exact h.mono (fun b hb ↦ mem_flatMap.mpr ⟨res, hres, hb⟩)
    (fun e he ↦ mem_flatMap.mpr ⟨res, hres, he⟩)

theorem readClass_of_some {v : Value} {cls : ServiceClass} (h : serviceClass? v = some cls) :
    readClass v = .ok (some cls) := by
  cases v with
  | str text => exact congrArg Except.ok h
  | _ => cases h

theorem as3Object_covers {o : As3Object} (hkept : o.Kept) (hdict : o.object.isDict = true)
    {res : As3Result}
    (h : as3Object repr s o.tenantName o.appName o.app (o.name, o.object) = .ok res) :
    res.Covers (o.source s) o := by
  obtain ⟨cls, hcls⟩ := Option.isSome_iff_exists.mp hkept.cls
  rw [as3Object, if_neg (by simp [hkept.name, hdict])] at h
  obtain ⟨read, hread, h⟩ := bind_eq_ok.mp h
  cases (readClass_of_some hcls).symm.trans hread
  exact as3Service_covers hkept hcls h

theorem as3Application_covers {o : As3Object} (hkept : o.Kept) (hdict : o.object.isDict = true)
    (hmem : (o.name, o.object) ∈ o.app.items) {res : As3Result}
    (h : as3Application repr s o.tenantName o.appName o.app = .ok res) :
    res.Covers (o.source s) o := by
  obtain ⟨results, hresults, h⟩ := bind_eq_ok.mp h
  cases h
  obtain ⟨result, hmem, hresult⟩ := exists_of_forall₂ (mapM_eq_ok.mp hresults) hmem
  exact covers_foldl_append hmem (as3Object_covers hkept hdict hresult)

theorem as3Adc_covers {adc : Value} {res : As3Result} (h : as3Adc repr s adc = .ok res)
    {o : As3Object} (ho : o ∈ as3Objects adc) (hkept : o.Kept) : res.Covers (o.source s) o := by
  obtain ⟨t, ht, ho⟩ := mem_flatMap.mp ho
  obtain ⟨a, ha, ho⟩ := mem_flatMap.mp ho
  obtain ⟨object, hobject, rfl⟩ := mem_map.mp ho
  rw [mem_filter, Bool.and_eq_true] at ht ha hobject
  have htenant : as3MetaKeys.contains t.1 = false := by simpa using hkept.tenantName
  have happ : as3AppMetaKeys.contains a.1 = false := by simpa using hkept.appName
  obtain ⟨tenants, htenants, h⟩ := bind_eq_ok.mp h
  cases h
  obtain ⟨tenant, hmem, h⟩ := exists_of_forall₂ (mapM_eq_ok.mp htenants)
    (mem_filter.mpr ⟨ht.1, by rw [htenant, ht.2.1, ht.2.2]; rfl⟩)
  refine covers_foldl_append hmem ?_
  obtain ⟨apps, happs, h⟩ := bind_eq_ok.mp h
  cases h
  obtain ⟨app, hmem, h⟩ := exists_of_forall₂ (mapM_eq_ok.mp happs)
    (mem_filter.mpr ⟨ha.1, by rw [happ, ha.2.1, ha.2.2]; rfl⟩)
  exact covers_foldl_append hmem (as3Application_covers hkept hobject.2.1 hobject.1 h)

/-! ### What the walk gives -/

theorem exists_as3Service_of_as3Adc {adc : Value} {res : As3Result} (h : as3Adc repr s adc = .ok res)
    {e : UnmappedEntry} (he : e ∈ res.unmapped) :
    ∃ s' pools cls vs res', as3Service repr s' pools cls vs = .ok res' ∧ e ∈ res'.unmapped := by
  have hmem {results : List As3Result} (he : e ∈ (results.foldl As3Result.append {}).unmapped) :
      ∃ res ∈ results, e ∈ res.unmapped := by
    rw [foldl_append_eq] at he
    exact mem_flatMap.mp he
  obtain ⟨tenants, htenants, h⟩ := bind_eq_ok.mp h
  cases h
  obtain ⟨tenant, htenant, he⟩ := hmem he
  obtain ⟨t, -, h⟩ := exists_of_forall₂ (mapM_eq_ok.mp htenants).flip htenant
  obtain ⟨apps, happs, h⟩ := bind_eq_ok.mp h
  cases h
  obtain ⟨app, happ, he⟩ := hmem he
  obtain ⟨a, -, h⟩ := exists_of_forall₂ (mapM_eq_ok.mp happs).flip happ
  obtain ⟨results, hresults, h⟩ := bind_eq_ok.mp h
  cases h
  obtain ⟨result, hresult, he⟩ := hmem he
  obtain ⟨o, -, h⟩ := exists_of_forall₂ (mapM_eq_ok.mp hresults).flip hresult
  unfold as3Object at h
  split at h
  · cases h
    cases he
  · obtain ⟨read, -, h⟩ := bind_eq_ok.mp h
    cases read with
    | none =>
      cases h
      cases he
    | some cls => exact ⟨_, _, cls, _, _, h, he⟩

def UnmappedEntry.NamesPort (e : UnmappedEntry) : Prop := ∃ s portName, e = Source.portByName s portName

theorem not_namesPort {construct detail reason : String} (h : construct ≠ "port_by_name") :
    ¬ (s.unmapped construct detail reason).NamesPort := by
  rintro ⟨s', portName, he⟩
  exact h (congrArg UnmappedEntry.construct he)

theorem addressEntries_not_namesPort {vaddr : Value} {es : List UnmappedEntry}
    (h : addressEntries repr s vaddr = .ok es) {e : UnmappedEntry} (he : e ∈ es) : ¬ e.NamesPort := by
  obtain ⟨address, -, h⟩ := bind_eq_ok.mp h
  dsimp only at h
  split at h
  · cases h
    rw [mem_singleton.mp he]
    exact not_namesPort (by decide)
  · obtain ⟨starts, -, h⟩ := bind_eq_ok.mp h
    cases h
    split at he
    · rw [mem_singleton.mp he]
      exact not_namesPort (by decide)
    · cases he

theorem resolvePool_not_namesPort {pools : List (String × Value)} {poolRef : Value}
    {e : UnmappedEntry} (h : resolvePool s pools poolRef = .ok (.inr e)) : ¬ e.NamesPort := by
  unfold resolvePool at h
  split at h
  · split at h
    · cases h
      exact not_namesPort (by decide)
    · cases h
  · split at h
    · split at h
      · cases h
        exact not_namesPort (by decide)
      · cases h
    · cases h
  · cases h

theorem readMembers_not_namesPort {members : List Value} {m : MembersResult}
    (h : readMembers repr s members = .ok m) {e : UnmappedEntry} (he : e ∈ m.unmapped) :
    ¬ e.NamesPort := by
  induction members with
  | nil =>
    cases h
    cases he
  | cons member members ih =>
    rw [readMembers] at h
    split at h
    · exact ih h
    · split at h
      · obtain ⟨ips, -, h⟩ := bind_eq_ok.mp h
        cases h
        obtain ⟨ip, -, rfl⟩ := mem_map.mp he
        exact not_namesPort (by decide)
      · split at h
        · unfold serviceMember at h
          split at h
          · cases h
            rw [mem_singleton.mp he]
            rintro ⟨s', portName, heq⟩
            have hreason := congrArg UnmappedEntry.reason heq
            dsimp only [Source.portByName, Source.unmapped] at hreason
            exact absurd hreason (by decide +kernel)
          · obtain ⟨n, -, h⟩ := bind_eq_ok.mp h
            cases h
            cases he
        · exact ih h

theorem finishService_not_namesPort {cls : ServiceClass} {vs : Value} {vaddrs : List Value}
    {m : MembersResult} {e : UnmappedEntry}
    (he : e ∈ (finishService repr s cls vs vaddrs m).unmapped) : ¬ e.NamesPort := by
  have htls (he : e ∈ as3TlsEntries repr s vs) : ¬ e.NamesPort := by
    obtain ⟨key, -, he⟩ := mem_flatMap.mp he
    dsimp only at he
    split at he
    · rw [mem_singleton.mp he]
      exact not_namesPort (by decide)
    · cases he
  obtain ⟨backend, port, unmapped⟩ := m
  cases cls <;> cases backend
  case http.none => cases he
  case http.some => cases he
  case https.none => exact htls he
  case https.some => exact htls he
  case tcp.none => cases he
  case tcp.some =>
    rw [mem_singleton.mp he]
    exact not_namesPort (by decide)
  case udp.none => cases he
  case udp.some =>
    rw [mem_singleton.mp he]
    exact not_namesPort (by decide)

theorem as3Service_not_namesPort {pools : List (String × Value)} {cls : ServiceClass} {vs : Value}
    {res : As3Result} (h : as3Service repr s pools cls vs = .ok res) {e : UnmappedEntry}
    (he : e ∈ res.unmapped) : ¬ e.NamesPort := by
  obtain ⟨vaddrs, addresses, irules, irulesEntries, flagged, -, haddresses, -, hentries, rfl, h⟩ :=
    as3Service_eq_ok h
  have hflagged (he : e ∈ addresses.flatten ++ irulesEntries ++ as3PolicyEntries repr s vs) :
      ¬ e.NamesPort := by
    rw [mem_append, mem_append] at he
    obtain (he | he) | he := he
    · obtain ⟨es, hes, he⟩ := mem_flatten.mp he
      obtain ⟨vaddr, -, hvaddr⟩ := exists_of_forall₂ haddresses.flip hes
      exact addressEntries_not_namesPort hvaddr he
    · obtain ⟨irule, -, hirule⟩ := exists_of_forall₂ hentries.flip he
      obtain ⟨text, -, hirule⟩ := bind_eq_ok.mp hirule
      cases hirule
      exact not_namesPort (by decide)
    · obtain ⟨key, -, he⟩ := mem_flatMap.mp he
      dsimp only at he
      split at he
      · rw [mem_singleton.mp he]
        exact not_namesPort (by decide)
      · cases he
  obtain ⟨entry, hpool, rfl⟩ | ⟨pool, members, m, -, -, hm, rfl⟩ := h
  · obtain he | he := mem_append.mp he
    · exact hflagged he
    · rw [mem_singleton.mp he]
      exact resolvePool_not_namesPort hpool
  · obtain he | he := mem_append.mp he
    · rw [mem_append, mem_append] at he
      obtain (he | he) | he := he
      · exact hflagged he
      · exact readMembers_not_namesPort hm he
      · split at he
        · rw [mem_singleton.mp he]
          exact not_namesPort (by decide)
        · cases he
    · exact finishService_not_namesPort he

theorem as3Envelope_inr {declaration : Value} {e : UnmappedEntry}
    (h : as3Envelope repr s declaration = .inr e) : e.construct = "as3_parse_error" := by
  unfold as3Envelope at h
  split at h
  · cases h
    rfl
  · dsimp only at h
    split at h
    · split at h
      · split at h
        · cases h
        · cases h
          rfl
      · split at h
        · cases h
        · cases h
          rfl
    · cases h
      rfl

theorem as3DeclarationToBnk_not_namesPort {declaration : Value} {res : As3Result}
    (h : as3DeclarationToBnk repr s declaration = .ok res) {e : UnmappedEntry}
    (he : e ∈ res.unmapped) : ¬ e.NamesPort := by
  unfold as3DeclarationToBnk at h
  split at h
  · next entry henvelope =>
    cases h
    rw [mem_singleton.mp he]
    rintro ⟨s', portName, rfl⟩
    exact absurd (as3Envelope_inr henvelope) (show "port_by_name" ≠ "as3_parse_error" by decide)
  · obtain ⟨walked, hwalked, h⟩ := bind_eq_ok.mp h
    cases h
    obtain ⟨s', pools, cls, vs, res', hservice, he⟩ := exists_as3Service_of_as3Adc hwalked he
    exact as3Service_not_namesPort hservice he

end

end BnkForge.Proxy
