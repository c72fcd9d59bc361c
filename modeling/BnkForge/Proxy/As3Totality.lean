import BnkForge.Lib.PythonRecord
import BnkForge.Proxy.As3Services

/-!
# Which AS3 declarations are parsed

The walk over a declaration reads JSON of any shape, and guards only some of what it reads. It gives
rules with proper backends just for declarations whose services are readable (`parsesWell_iff`).
-/

namespace BnkForge.Proxy

open Python ExceptResult List

/-! ### Rules -/

def As3Backend.rule (b : As3Backend) : Value :=
  .dict [("matches", .list [.dict [("path", .dict [("type", .str "PathPrefix"), ("value", .str "/")])]]),
    ("backendRefs", .list [.dict [("name", b.service), ("port", .int b.port)]])]

def HasBackend (rule : Value) : Prop :=
  ∃ name port, rule.get "backendRefs" = .list [.dict [("name", .str name), ("port", .int port)]] ∧
    name ≠ "" ∧ 1 ≤ port ∧ port ≤ 65535

def usableAdc? (declaration : Value) : Option Value :=
  let adc := if (declaration.get "class").isText "AS3" then declaration.get "declaration" else declaration
  if declaration.isDict ∧ ((declaration.get "class").isText "AS3" ∨ (declaration.get "class").isText "ADC") ∧
    adc.truthy ∧ adc.isDict then some adc else none

/-- The parser gives a result, all rules have a proper backend, and of an envelope that is not usable there
are no rules and one entry. -/
def ParsesWell (repr : Value → String) (s : Source) (declaration : Value) : Prop :=
  ∃ res, as3DeclarationToBnk repr s declaration = .ok res ∧
    (∀ rule ∈ res.backends.map As3Backend.rule, HasBackend rule) ∧
    (usableAdc? declaration = none → res.backends.map As3Backend.rule = [] ∧ res.unmapped.length = 1)

/-! ### Readable services -/

/-- `for item in value` can be done. -/
def canLoop (v : Value) : Bool := v.isStr || v.isList || v.isDict

/-- `for item in value or []` can be done, and the elements of a list are as they should be. -/
def Loops (v : Value) (P : Value → Prop) : Prop :=
  canLoop (v.orElse (.list [])) = true ∧ ∀ x ∈ elementsOf (v.orElse (.list [])), P x

/-- What is used is missing or a text. -/
def UsesText (v : Value) : Prop := (v.get "use").truthy = false ∨ (v.get "use").isStr = true

def IsAddress (v : Value) : Prop := v.isStr = true ∨ v.isDict = true ∧ UsesText v

/-- An iRule is a text or an object. -/
def IsIrule (v : Value) : Prop := v.isStr = true ∨ v.isDict = true

/-- The member that the backend of a pool is read from. -/
def decisiveMember? (members : List Value) : Option Value :=
  members.find? fun m ↦ m.isDict && ((m.get "serverAddresses").truthy || (memberService m).truthy)

/-- The number that is written for the port of a member: 80 where it has a name. -/
def portNumber (member : Value) : Except Raised Int :=
  match portNameOf (memberPort member) with
  | some _ => .ok 80
  | none => (memberPort member).number

/-- A service of layer seven, whose backend becomes one of a rule. -/
def ServiceClass.isHttp : ServiceClass → Bool
  | .http => true
  | .https => true
  | _ => false

def IsMember (cls : ServiceClass) (m : Value) : Prop :=
  if (m.get "serverAddresses").truthy then canLoop (m.get "serverAddresses") = true
  else ∃ port, portNumber m = .ok port ∧ (cls.isHttp = true →
    (∃ name, memberService m = .str name ∧ name ≠ "") ∧ 1 ≤ port ∧ port ≤ 65535)

def As3Object.IsCrossTenant (o : As3Object) : Prop :=
  ∃ name ∈ o.poolName, ['/'].isPrefixOf name.toList = true

/-- A service whose parts have the shapes that the walk takes them to have. -/
structure As3Object.Readable (o : As3Object) (cls : ServiceClass) : Prop where
  addresses : Loops (o.object.get "virtualAddresses") IsAddress
  irules : Loops (o.object.get "iRules") IsIrule
  pool : (o.object.get "pool").isDict = true → UsesText (o.object.get "pool")
  members : ¬ o.IsCrossTenant → canLoop o.members = true ∧
    ∀ m ∈ decisiveMember? (elementsOf o.members), IsMember cls m

def As3Object.IsFine (o : As3Object) : Prop :=
  (o.object.get "class").hashable = true ∧ ∀ cls ∈ serviceClass? (o.object.get "class"), o.Readable cls

/-- The objects of all applications of a declaration that are not passed over by their names. -/
def visitedObjects (adc : Value) : List As3Object :=
  (adc.items.filter fun t ↦
    !as3MetaKeys.contains t.1 && t.2.isDict && (t.2.get "class").isText "Tenant").flatMap fun t ↦
    (t.2.items.filter fun a ↦
      !as3AppMetaKeys.contains a.1 && a.2.isDict && (a.2.get "class").isText "Application").flatMap fun a ↦
      (a.2.items.filter fun o ↦ !as3AppMetaKeys.contains o.1 && o.2.isDict).map fun o ↦
        ⟨t.1, a.1, o.1, a.2, o.2⟩

def Readable (adc : Value) : Prop := ∀ o ∈ visitedObjects adc, o.IsFine

/-! ### Loops -/

section

variable {repr : Value → String} {s : Source} {v : Value}

theorem exists_iterate_iff {P : Value → Prop} (htext : ∀ text, P (.str text)) :
    (∃ items, v.iterate = .ok items ∧ ∀ x ∈ items, P x) ↔ canLoop v = true ∧ ∀ x ∈ elementsOf v, P x := by
  cases v with
  | list items => simp [Value.iterate, canLoop, elementsOf, Value.isList, Value.isStr]
  | str text => simp [Value.iterate, canLoop, elementsOf, Value.isStr, htext]
  | dict items =>
    have hkeys : ∀ x ∈ items.map fun i ↦ Value.str i.1, P x := by
      intro x hx
      obtain ⟨i, -, rfl⟩ := mem_map.mp hx
      exact htext i.1
    simpa [Value.iterate, canLoop, elementsOf, Value.isDict, Value.isStr] using hkeys
  | _ => simp [Value.iterate, canLoop, Value.isStr, Value.isList, Value.isDict]

variable (v) in
theorem exists_startsWith_iff (start : String) :
    (∃ b, ((v.get "use").orElse (.str "")).startsWith? start = .ok b) ↔ UsesText v := by
  unfold UsesText Value.orElse
  cases htruthy : (v.get "use").truthy with
  | false => simp [Value.startsWith?]
  | true => cases hused : v.get "use" <;> simp [Value.startsWith?, Value.isStr]

variable (repr s v) in
theorem exists_addressEntries_iff : (∃ es, addressEntries repr s v = .ok es) ↔ IsAddress v := by
  have hentries : ∀ address, addressOf v = .ok address →
      ((∃ es, addressEntries repr s v = .ok es) ↔ ∃ b, address.startsWith? "/" = .ok b) := by
    intro address haddress
    rw [addressEntries, haddress, ok_bind]
    cases address with
    | str text =>
      refine iff_of_true ?_ ⟨_, rfl⟩
      dsimp only
      split <;> exact ⟨_, rfl⟩
    | _ => simp [Value.isText, Value.startsWith?, bind, Except.bind]
  cases v with
  | str text => exact iff_of_true ((hentries _ rfl).mpr ⟨_, rfl⟩) (.inl rfl)
  | dict items =>
    rw [hentries _ rfl, exists_startsWith_iff (.dict items) "/", IsAddress]
    simp [Value.isStr, Value.isDict]
  | _ => simp [addressEntries, addressOf, Value.get?, Value.isStr, Value.isDict, IsAddress, bind, Except.bind]

variable (repr s v) in
theorem exists_as3IruleEntry_iff : (∃ e, as3IruleEntry repr s v = .ok e) ↔ IsIrule v := by
  cases v with
  | str text => exact iff_of_true ⟨_, rfl⟩ (.inl rfl)
  | dict items => exact iff_of_true ⟨_, rfl⟩ (.inr rfl)
  | _ => simp [as3IruleEntry, iruleText, Value.get?, Value.isStr, Value.isDict, IsIrule, bind, Except.bind]

/-! ### Pools and members -/

variable (s v) in
theorem exists_resolvePool_iff (pools : List (String × Value)) :
    (∃ r, resolvePool s pools v = .ok r) ↔ (v.isDict = true → UsesText v) := by
  cases v with
  | str name =>
    refine iff_of_true ?_ (by simp [Value.isDict])
    unfold resolvePool
    dsimp only
    split <;> exact ⟨_, rfl⟩
  | dict items =>
    have hdict : (Value.dict items).isDict = true := rfl
    have hstarts := exists_startsWith_iff (.dict items) "/"
    rw [forall_prop_of_true hdict, ← hstarts]
    unfold resolvePool
    cases ((Value.dict items).get "use").orElse (.str "") with
    | str name =>
      refine iff_of_true ?_ ⟨_, rfl⟩
      dsimp only
      split <;> exact ⟨_, rfl⟩
    | _ => simp [Value.startsWith?]
  | _ => exact iff_of_true ⟨_, rfl⟩ (by simp [Value.isDict])

theorem exists_slash_of_resolvePool {pools : List (String × Value)} {e : UnmappedEntry}
    (h : resolvePool s pools v = .ok (.inr e)) : ∃ name ∈ poolNameOf v, ['/'].isPrefixOf name.toList = true := by
  unfold resolvePool at h
  cases v with
  | str name =>
    dsimp only at h
    split at h
    · next hslash => exact ⟨name, rfl, hslash⟩
    · cases h
  | dict items =>
    dsimp only at h
    split at h
    · next name hname =>
      split at h
      · next hslash => exact ⟨name, by rw [poolNameOf, hname]; rfl, hslash⟩
      · cases h
    · cases h
  | _ => cases h

theorem exists_serviceMember_iff {Q : Value → Int → Prop} :
    (∃ m, serviceMember s v = .ok m ∧ ∀ service ∈ m.backend, Q service m.port) ↔
      ∃ port, portNumber v = .ok port ∧ Q (memberService v) port := by
  unfold serviceMember portNumber
  cases portNameOf (memberPort v) with
  | some portName => simp
  | none => cases (memberPort v).number <;> simp [bind, Except.bind, pure, Except.pure]

variable (repr s) in
theorem exists_readMembers_iff (Q : Value → Int → Prop) (members : List Value) :
    (∃ m, readMembers repr s members = .ok m ∧ ∀ service ∈ m.backend, Q service m.port) ↔
      ∀ m ∈ decisiveMember? members,
        if (m.get "serverAddresses").truthy then canLoop (m.get "serverAddresses") = true
        else ∃ port, portNumber m = .ok port ∧ Q (memberService m) port := by
  induction members with
  | nil => simp [readMembers, decisiveMember?]
  | cons member members ih =>
    rw [readMembers, decisiveMember?, find?_cons]
    by_cases hdict : member.isDict = true
    · by_cases haddresses : (member.get "serverAddresses").truthy = true
      · have hiterate := exists_iterate_iff (v := member.get "serverAddresses") (P := fun _ ↦ True) (by simp)
        simp only [implies_true, and_true] at hiterate
        rw [if_neg (by simp [hdict]), if_pos haddresses]
        simp only [hdict, haddresses, Bool.true_and, Bool.true_or, Option.mem_some_iff, forall_eq', if_true,
          ← hiterate]
        cases (member.get "serverAddresses").iterate <;> simp [bind, Except.bind, pure, Except.pure]
      · by_cases hservice : (memberService member).truthy = true
        · rw [if_neg (by simp [hdict]), if_neg haddresses, if_pos hservice, exists_serviceMember_iff]
          simp [hdict, haddresses, hservice]
        · rw [if_neg (by simp [hdict]), if_neg haddresses, if_neg hservice, ih, decisiveMember?]
          simp [hdict, haddresses, hservice]
    · rw [if_pos (by simp [hdict]), ih, decisiveMember?]
      simp [hdict]

theorem decisiveMember?_of_iterate {items : List Value} (h : v.iterate = .ok items) :
    decisiveMember? items = decisiveMember? (elementsOf v) := by
  cases v with
  | list items => cases h; rfl
  | str text =>
    cases h
    simp [decisiveMember?, elementsOf, Value.isDict]
  | dict keys =>
    cases h
    simp [decisiveMember?, elementsOf, Value.isDict]
  | _ => cases h

variable (repr s v) in
theorem exists_members_iff {cls : ServiceClass} :
    (∃ items m, v.iterate = .ok items ∧ readMembers repr s items = .ok m ∧
      ∀ service ∈ m.backend, cls.isHttp = true →
        (∃ name, service = .str name ∧ name ≠ "") ∧ 1 ≤ m.port ∧ m.port ≤ 65535) ↔
      canLoop v = true ∧ ∀ m ∈ decisiveMember? (elementsOf v), IsMember cls m := by
  have hread := exists_readMembers_iff repr s fun service port ↦ cls.isHttp = true →
    (∃ name, service = .str name ∧ name ≠ "") ∧ 1 ≤ port ∧ port ≤ 65535
  have hiterate := exists_iterate_iff (v := v) (P := fun _ ↦ True) (by simp)
  simp only [implies_true, and_true] at hiterate
  rw [← hiterate]
  constructor
  · rintro ⟨items, m, hitems, hm, hbackend⟩
    rw [← decisiveMember?_of_iterate hitems]
    exact ⟨⟨items, hitems⟩, (hread items).mp ⟨m, hm, hbackend⟩⟩
  · rintro ⟨⟨items, hitems⟩, hmember⟩
    rw [← decisiveMember?_of_iterate hitems] at hmember
    obtain ⟨m, hm, hbackend⟩ := (hread items).mpr hmember
    exact ⟨items, m, hitems, hm, hbackend⟩

/-! ### One service -/

def Succeeds (r : Except Raised As3Result) : Prop :=
  ∃ res, r = .ok res ∧ ∀ b ∈ res.backends, HasBackend b.rule

theorem hasBackend_rule_iff {b : As3Backend} : HasBackend b.rule ↔
    (∃ name, b.service = .str name ∧ name ≠ "") ∧ 1 ≤ b.port ∧ b.port ≤ 65535 := by
  have hrefs : b.rule.get "backendRefs" = .list [.dict [("name", b.service), ("port", .int b.port)]] := rfl
  unfold HasBackend
  rw [hrefs]
  constructor
  · rintro ⟨name, port, heq, hname, hport⟩
    simp only [Value.list.injEq, List.cons.injEq, Value.dict.injEq, Prod.mk.injEq, Value.int.injEq, true_and,
      and_true] at heq
    obtain ⟨hservice, rfl⟩ := heq
    exact ⟨⟨name, hservice, hname⟩, hport⟩
  · rintro ⟨⟨name, hservice, hname⟩, hport⟩
    exact ⟨name, b.port, by rw [hservice], hname, hport⟩

theorem backends_finishService (cls : ServiceClass) (vs : Value) (vaddrs : List Value) (m : MembersResult) :
    (∀ b ∈ (finishService repr s cls vs vaddrs m).backends, HasBackend b.rule) ↔
      ∀ service ∈ m.backend, cls.isHttp = true → HasBackend (As3Backend.rule ⟨service, m.port⟩) := by
  obtain ⟨backend, port, unmapped⟩ := m
  cases cls <;> cases backend <;> simp [finishService, ServiceClass.isHttp]

theorem as3Service_succeeds_iff {o : As3Object} {cls : ServiceClass} :
    Succeeds (as3Service repr s (poolsInApp o.app) cls o.object) ↔ o.Readable cls := by
  constructor
  · rintro ⟨res, h, hbackends⟩
    obtain ⟨vaddrs, addresses, irules, entries, flagged, hvaddrs, haddresses, hirules, hentries, -, hpool⟩ :=
      as3Service_eq_ok h
    refine ⟨(exists_iterate_iff fun text ↦ .inl rfl).mp ⟨vaddrs, hvaddrs, fun v hv ↦ ?_⟩,
      (exists_iterate_iff fun text ↦ .inl rfl).mp ⟨irules, hirules, fun v hv ↦ ?_⟩, ?_, fun hcross ↦ ?_⟩
    · obtain ⟨es, -, hes⟩ := exists_of_forall₂ haddresses hv
      exact (exists_addressEntries_iff repr s _).mp ⟨es, hes⟩
    · obtain ⟨e, -, he⟩ := exists_of_forall₂ hentries hv
      exact (exists_as3IruleEntry_iff repr s _).mp ⟨e, he⟩
    · refine (exists_resolvePool_iff s _ (poolsInApp o.app)).mp ?_
      rcases hpool with ⟨entry, hpool, -⟩ | ⟨pool, _, _, hpool, -⟩
      · exact ⟨_, hpool⟩
      · exact ⟨_, hpool⟩
    · rcases hpool with ⟨entry, hpool, -⟩ | ⟨pool, members, m, hpool, hitems, hm, rfl⟩
      · exact absurd (exists_slash_of_resolvePool hpool) hcross
      · rw [members_of_resolvePool hpool] at hitems
        refine (exists_members_iff repr s _).mp ⟨members, m, hitems, hm, fun service hservice hhttp ↦ ?_⟩
        exact hasBackend_rule_iff.mp ((backends_finishService cls _ _ m).mp hbackends service hservice hhttp)
  · intro h
    obtain ⟨vaddrs, hvaddrs, haddresses⟩ := (exists_iterate_iff fun text ↦ .inl rfl).mpr h.addresses
    obtain ⟨irules, hirules, hirule⟩ := (exists_iterate_iff fun text ↦ .inl rfl).mpr h.irules
    obtain ⟨addresses, haddresses⟩ := exists_mapM fun v hv ↦
      (exists_addressEntries_iff repr s v).mpr (haddresses v hv)
    obtain ⟨entries, hentries⟩ := exists_mapM fun v hv ↦
      (exists_as3IruleEntry_iff repr s v).mpr (hirule v hv)
    obtain ⟨r, hr⟩ := (exists_resolvePool_iff s _ (poolsInApp o.app)).mpr h.pool
    unfold as3Service Succeeds
    rw [hvaddrs, ok_bind, haddresses, ok_bind, hirules, ok_bind, hentries, ok_bind]
    dsimp only
    rw [hr, ok_bind]
    cases r with
    | inr entry => exact ⟨_, rfl, by simp⟩
    | inl pool =>
      have hcross : ¬ o.IsCrossTenant := by
        rintro ⟨name, hname, hslash⟩
        rw [(resolvePool_inl hr).2 name hname] at hslash
        cases hslash
      obtain ⟨members, m, hitems, hm, hbackend⟩ := (exists_members_iff repr s _).mpr (h.members hcross)
      rw [← members_of_resolvePool hr] at hitems
      dsimp only
      rw [hitems, ok_bind, hm, ok_bind]
      refine ⟨_, rfl, (backends_finishService cls _ _ m).mpr fun service hservice hhttp ↦ ?_⟩
      exact hasBackend_rule_iff.mpr (hbackend service hservice hhttp)

/-! ### The walk -/

theorem succeeds_mapM_iff {α : Type} {f : α → Except Raised As3Result} (xs : List α) :
    Succeeds (do let results ← xs.mapM f; return results.foldl As3Result.append {}) ↔
      ∀ x ∈ xs, Succeeds (f x) := by
  constructor
  · rintro ⟨res, h, hbackends⟩ x hx
    obtain ⟨results, hresults, hres⟩ := bind_eq_ok.mp h
    obtain rfl := pure_eq_ok.mp hres
    obtain ⟨part, hpart, hfx⟩ := exists_of_forall₂ (mapM_eq_ok.mp hresults) hx
    rw [foldl_append_eq] at hbackends
    exact ⟨part, hfx, fun b hb ↦ hbackends b (mem_flatMap.mpr ⟨part, hpart, hb⟩)⟩
  · intro h
    obtain ⟨results, hresults⟩ := exists_mapM fun x hx ↦ (h x hx).imp fun _ hres ↦ hres.1
    refine ⟨results.foldl As3Result.append {}, by rw [hresults]; rfl, fun b hb ↦ ?_⟩
    rw [foldl_append_eq] at hb
    obtain ⟨part, hpart, hb⟩ := mem_flatMap.mp hb
    obtain ⟨x, hx, hfx⟩ := exists_of_forall₂ (mapM_eq_ok.mp hresults).flip hpart
    obtain ⟨res, hres, hbackends⟩ := h x hx
    obtain rfl : part = res := Except.ok.inj (hfx.symm.trans hres)
    exact hbackends b hb

theorem as3Object_succeeds_iff {tenantName appName : String} {app : Value} {o : String × Value} :
    Succeeds (as3Object repr s tenantName appName app o) ↔
      (!as3AppMetaKeys.contains o.1 && o.2.isDict) = true →
        As3Object.IsFine ⟨tenantName, appName, o.1, app, o.2⟩ := by
  have hempty : Succeeds (.ok {}) := ⟨{}, rfl, by simp⟩
  unfold as3Object
  split
  · next hskip => exact iff_of_true hempty fun hkept ↦ by simp_all
  · next hkept =>
    rw [forall_prop_of_true (by simpa using hkept)]
    unfold readClass As3Object.IsFine
    split
    · next hhash =>
      rw [ok_bind, and_iff_right hhash]
      cases hcls : serviceClass? (o.2.get "class") with
      | none => exact iff_of_true hempty (by simp)
      | some cls =>
        simp only [Option.mem_some_iff, forall_eq']
        exact as3Service_succeeds_iff (o := ⟨tenantName, appName, o.1, app, o.2⟩)
    · next hhash =>
      refine iff_of_false ?_ fun h ↦ hhash h.1
      rintro ⟨res, h, -⟩
      cases h

theorem as3Application_succeeds_iff {tenantName appName : String} {app : Value} :
    Succeeds (as3Application repr s tenantName appName app) ↔
      ∀ o ∈ app.items.filter fun o ↦ !as3AppMetaKeys.contains o.1 && o.2.isDict,
        As3Object.IsFine ⟨tenantName, appName, o.1, app, o.2⟩ := by
  refine (succeeds_mapM_iff app.items).trans ?_
  simp only [as3Object_succeeds_iff, mem_filter, and_imp]

theorem as3Tenant_succeeds_iff {tenantName : String} {tenant : Value} :
    Succeeds (as3Tenant repr s tenantName tenant) ↔
      ∀ a ∈ tenant.items.filter fun a ↦
        !as3AppMetaKeys.contains a.1 && a.2.isDict && (a.2.get "class").isText "Application",
      Succeeds (as3Application repr s tenantName a.1 a.2) :=
  succeeds_mapM_iff _

variable (repr s) in
theorem as3Adc_succeeds_iff {adc : Value} : Succeeds (as3Adc repr s adc) ↔ Readable adc := by
  refine (succeeds_mapM_iff _).trans ?_
  simp only [as3Tenant_succeeds_iff, as3Application_succeeds_iff]
  constructor
  · intro h o ho
    obtain ⟨t, ht, ho⟩ := mem_flatMap.mp ho
    obtain ⟨a, ha, ho⟩ := mem_flatMap.mp ho
    obtain ⟨o', ho', rfl⟩ := mem_map.mp ho
    exact h t ht a ha o' ho'
  · intro h t ht a ha o ho
    exact h _ (mem_flatMap.mpr ⟨t, ht, mem_flatMap.mpr ⟨a, ha, mem_map_of_mem ho⟩⟩)

/-! ### Declarations -/

variable (repr s) in
theorem as3Envelope_of_usable {declaration adc : Value} (h : usableAdc? declaration = some adc) :
    as3Envelope repr s declaration = .inl adc := by
  obtain ⟨⟨hdict, hclass, htruthy, hadc⟩, heq⟩ := Option.ite_none_right_eq_some.mp h
  cases heq
  unfold as3Envelope
  rw [if_neg (by simp [hdict])]
  dsimp only
  rw [if_pos (by simpa using hclass), if_pos (by simp [htruthy, hadc])]

variable (repr s) in
theorem as3Envelope_of_unusable {declaration : Value} (h : usableAdc? declaration = none) :
    ∃ entry, as3Envelope repr s declaration = .inr entry := by
  cases hadc : as3Envelope repr s declaration with
  | inr entry => exact ⟨entry, rfl⟩
  | inl adc =>
    unfold as3Envelope at hadc
    unfold usableAdc? at h
    dsimp only at hadc h
    generalize (if (declaration.get "class").isText "AS3" = true then declaration.get "declaration"
      else declaration) = body at hadc h
    split at hadc
    · cases hadc
    next hdict =>
    split at hadc
    · next hclass =>
      split at hadc
      · next hbody =>
        rw [if_pos ⟨by simpa using hdict, by simpa using hclass, Bool.and_eq_true_iff.mp hbody⟩] at h
        cases h
      · cases hadc
    · cases hadc

end

/-- A declaration is parsed without failure to rules with proper backends, or to one entry if its envelope
is not usable, just if its services are readable. -/
theorem parsesWell_iff (repr : Value → String) (s : Source) (declaration : Value) :
    ParsesWell repr s declaration ↔ ∀ adc ∈ usableAdc? declaration, Readable adc := by
  unfold ParsesWell as3DeclarationToBnk
  cases husable : usableAdc? declaration with
  | none =>
    obtain ⟨entry, hentry⟩ := as3Envelope_of_unusable repr s husable
    rw [hentry]
    exact iff_of_true ⟨_, rfl, by simp, by simp⟩ (by simp)
  | some adc =>
    rw [as3Envelope_of_usable repr s husable]
    simp only [Option.mem_some_iff, forall_eq', ← as3Adc_succeeds_iff repr s]
    constructor
    · rintro ⟨res, h, hrules, -⟩
      obtain ⟨res', hres', heq⟩ := bind_eq_ok.mp h
      cases heq
      exact ⟨res', hres', fun b hb ↦ hrules b.rule (List.mem_map_of_mem hb)⟩
    · rintro ⟨res, h, hbackends⟩
      rw [h, ok_bind]
      refine ⟨_, rfl, fun rule hrule ↦ ?_, by simp⟩
      obtain ⟨b, hb, rfl⟩ := List.mem_map.mp hrule
      exact hbackends b hb

def numberedDeclaration : Value :=
  .dict [("class", .str "ADC"), ("web", .dict [("class", .str "Tenant"), ("shop", .dict
    [("class", .str "Application"), ("front", .dict
      [("class", .str "Service_HTTP"), ("virtualAddresses", .list [.int 10])])])])]

theorem numberedDeclaration_not_parsesWell :
    ¬ ParsesWell (fun _ ↦ "") ⟨"AS3", "as3", "default"⟩ numberedDeclaration := by
  rintro ⟨res, h, -⟩
  cases h

end BnkForge.Proxy
