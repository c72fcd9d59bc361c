import BnkForge.Proxy.Translate
import BnkForge.Lib.LongestPrefix
import Mathlib.Algebra.Order.BigOperators.Group.List

/-!
# Routing before and after the translation

The backend that a request goes to, by the rules of the Ingresses and by the HTTPRoute that they are
translated to. The route has the rules of all hosts and lists the hosts apart from them, so a request
is routed as before where the rules of one host change nothing for another.
-/

namespace BnkForge.Proxy

open LongestPrefix List

/-! ### How a request is routed -/

structure Candidate where
  type : MatchType
  value : String
  name : String
  port : Int
  deriving DecidableEq, Repr

def pathElements (path : String) : List (List Char) :=
  (path.toList.splitOn '/').filter fun element ↦ !element.isEmpty

namespace Candidate

def elements (c : Candidate) : List (List Char) := pathElements c.value

def service? (c : Candidate) : Option (String × Int) :=
  if c.name = placeholderName then none else some (c.name, c.port)

def isExactly (path : String) (c : Candidate) : Bool := c.type == .exact && c.value == path

def Accepts (c : Candidate) (path : String) : Prop :=
  match c.type with
  | .exact => c.value = path
  | .pathPrefix => c.elements <+: pathElements path

end Candidate

def prefixes (cs : List Candidate) : List Candidate := cs.filter (·.type == .pathPrefix)

def choose (cs : List Candidate) (path : String) : Option Candidate :=
  (cs.find? (Candidate.isExactly path)).or
    (select Candidate.elements (prefixes cs) (pathElements path))

def backendOf (cs : List Candidate) (path : String) : Option (String × Int) :=
  (choose cs path).bind Candidate.service?

def ruleCandidates (r : RouteRule) : List Candidate :=
  match r.backendRefs with
  | [] => []
  | ref :: _ =>
    r.routeMatches.filterMap fun m ↦
      match m with
      | .path type value => some ⟨type, value, ref.name, ref.port⟩
      | .copied _ => none

def routeBackend (route : HttpRoute) (host path : String) : Option (String × Int) :=
  if route.hostnames = [] ∨ host ∈ route.hostnames then
    backendOf (route.rules.flatMap ruleCandidates) path
  else none

structure HostEntry where
  host : Option String
  candidate : Candidate
  deriving DecidableEq, Repr

def hostEntry (host : Option String) (p : IngressPath) : Option HostEntry :=
  (nonEmpty? p.backend.name).map fun name ↦
    ⟨host, if p.pathType = some "Exact" then .exact else .pathPrefix, (nonEmpty? p.path).getD "/", name,
      p.backend.portNumber.getD 80⟩

def entriesOf (ingresses : List Ingress) : List HostEntry :=
  ingresses.flatMap fun ing ↦ ing.rules.flatMap fun r ↦ r.paths.filterMap (hostEntry r.host)

def entriesFor (entries : List HostEntry) (host : String) : List HostEntry :=
  let own := entries.filter (·.host == some host)
  if own.isEmpty then entries.filter (·.host == none) else own

def ingressBackend (ingresses : List Ingress) (host path : String) : Option (String × Int) :=
  backendOf ((entriesFor (entriesOf ingresses) host).map (·.candidate)) path

/-! ### Where it is the same -/

/-- The Ingresses that the routing is compared for: of one namespace, with paths of the types `Prefix`
and `Exact`, numbered ports, exact hosts and no default backend. A service has no upper-case name. -/
structure Plain (ingresses : List Ingress) : Prop where
  oneNamespace : ∃ ns, ∀ ing ∈ ingresses, ing.ns = ns
  pathType : ∀ ing ∈ ingresses, ∀ r ∈ ing.rules, ∀ p ∈ r.paths,
    p.pathType = some "Prefix" ∨ p.pathType = some "Exact"
  port : ∀ ing ∈ ingresses, ∀ r ∈ ing.rules, ∀ p ∈ r.paths, ∃ n, p.backend.portNumber = some n ∧ 0 < n
  service : ∀ ing ∈ ingresses, ∀ r ∈ ing.rules, ∀ p ∈ r.paths, p.backend.name ≠ some placeholderName
  host : ∀ ing ∈ ingresses, ∀ host ∈ ing.hosts, host ≠ "" ∧ '*' ∉ host.toList
  noDefault : ∀ ing ∈ ingresses, ing.defaultBackend = none

def listedHosts (ingresses : List Ingress) : List String := ingresses.flatMap (·.hosts)

/-- The first candidate with the match of `c`. -/
def firstAlike (cs : List Candidate) (c : Candidate) : Option Candidate :=
  match c.type with
  | .exact => cs.find? (Candidate.isExactly c.value)
  | .pathPrefix => (prefixes cs).find? fun d ↦ d.elements = c.elements

/-- What candidates make of the match of `c`: of its path where it is exact, else of the paths below it
that no longer prefix matches. -/
def chooseAt (cs : List Candidate) (c : Candidate) : Option Candidate :=
  match c.type with
  | .exact => choose cs c.value
  | .pathPrefix => select Candidate.elements (prefixes cs) c.elements

/-- The rules of one host change nothing for another: there are no rules without a host beside hosts,
and the own rules of each listed host send the match of every entry, of whatever host, to the backend
of the first entry with this match. -/
structure HostsAgree (ingresses : List Ingress) : Prop where
  hostless : listedHosts ingresses ≠ [] → ∀ e ∈ entriesOf ingresses, e.host ≠ none
  same : ∀ host ∈ listedHosts ingresses, ∀ e ∈ entriesOf ingresses,
    (chooseAt (((entriesOf ingresses).filter (·.host == some host)).map (·.candidate))
        e.candidate).bind Candidate.service? =
      (firstAlike ((entriesOf ingresses).map (·.candidate)) e.candidate).bind Candidate.service?

/-! ### Candidates among more candidates -/

theorem isExactly_iff {path : String} {c : Candidate} :
    c.isExactly path = true ↔ c.type = .exact ∧ c.value = path := by
  simp [Candidate.isExactly]

theorem mem_prefixes {cs : List Candidate} {c : Candidate} :
    c ∈ prefixes cs ↔ c ∈ cs ∧ c.type = .pathPrefix := by
  simp [prefixes]

theorem exists_fresh (used : List (List Char)) : ∃ w : List Char, w ≠ [] ∧ '/' ∉ w ∧ w ∉ used := by
  refine ⟨List.replicate ((used.map (·.length)).sum + 1) 'a', by simp, ?_, fun h ↦ ?_⟩
  · intro h
    exact absurd (eq_of_mem_replicate h) (by decide)
  · have hle := single_le_sum (fun _ _ ↦ Nat.zero_le _) _ (mem_map_of_mem (f := (·.length)) h)
    rw [length_replicate] at hle
    omega

theorem pathElements_below (value : String) {w : List Char} (hne : w ≠ []) (hw : '/' ∉ w) :
    pathElements (String.ofList (value.toList ++ '/' :: w)) = pathElements value ++ [w] := by
  rw [pathElements, String.toList_ofList, splitOn_append_cons_self, splitOn_eq_singleton hw,
    filter_append, pathElements, filter_singleton]
  have hempty : w.isEmpty = false := by simpa using hne
  simp [hempty]

section Agree

variable {as bs : List Candidate} (hsub : ∀ b ∈ bs, b ∈ as)

include hsub

theorem find?_isExactly_none {path : String} (h : as.find? (Candidate.isExactly path) = none) :
    bs.find? (Candidate.isExactly path) = none := by
  rw [find?_eq_none] at h ⊢
  exact fun b hb ↦ h b (hsub b hb)

theorem prefixes_subset : ∀ b ∈ prefixes bs, b ∈ prefixes as := by
  intro b hb
  rw [mem_prefixes] at hb ⊢
  exact ⟨hsub b hb.1, hb.2⟩

theorem backendOf_eq_of_agree
    (h : ∀ c ∈ as, (chooseAt bs c).bind Candidate.service? =
      (firstAlike as c).bind Candidate.service?) (path : String) :
    backendOf bs path = backendOf as path := by
  cases hexact : as.find? (Candidate.isExactly path) with
  | some c =>
    obtain ⟨htype, rfl⟩ := isExactly_iff.mp (find?_some hexact)
    have hc := h c (mem_of_find?_eq_some hexact)
    simp only [chooseAt, firstAlike, htype] at hc
    rw [backendOf, hc, backendOf, choose, hexact]
    rfl
  | none =>
    have hbs := find?_isExactly_none hsub hexact
    rw [backendOf, backendOf, choose, choose, hexact, hbs, Option.none_or, Option.none_or]
    cases hselect : select Candidate.elements (prefixes as) (pathElements path) with
    | none =>
      rw [select_eq_none_iff] at hselect
      rw [select_eq_none_iff.mpr fun b hb ↦ hselect b (prefixes_subset hsub b hb)]
    | some c =>
      obtain ⟨hmem, -⟩ := select_mem hselect
      have hc := h c (mem_prefixes.mp hmem).1
      simp only [chooseAt, firstAlike, (mem_prefixes.mp hmem).2] at hc
      rw [select_of_select (prefixes_subset hsub) hselect, hc, ← select_key hmem,
        ← select_of_select (fun _ hb ↦ hb) hselect, hselect]

theorem agree_of_backendOf_eq (h : ∀ path, backendOf bs path = backendOf as path) {c : Candidate}
    (hc : c ∈ as) :
    (chooseAt bs c).bind Candidate.service? = (firstAlike as c).bind Candidate.service? := by
  cases htype : c.type with
  | exact =>
    simp only [chooseAt, firstAlike, htype]
    have hsome : (as.find? (Candidate.isExactly c.value)).isSome = true := by
      rw [find?_isSome]
      exact ⟨c, hc, isExactly_iff.mpr ⟨htype, rfl⟩⟩
    have := h c.value
    rw [backendOf, backendOf] at this
    rw [this, choose, Option.or_of_isSome hsome]
  | pathPrefix =>
    simp only [chooseAt, firstAlike, htype]
    -- A path below the prefix that goes on with an element of its own.
    obtain ⟨w, hne, hslash, hfresh⟩ := exists_fresh (as.flatMap Candidate.elements)
    have hunused : ∀ a ∈ as, w ∉ a.elements := fun a ha hw ↦ hfresh (mem_flatMap.mpr ⟨a, ha, hw⟩)
    have helements := pathElements_below c.value hne hslash
    have hexact : as.find?
        (Candidate.isExactly (String.ofList (c.value.toList ++ '/' :: w))) = none := by
      rw [find?_eq_none]
      intro a ha hpath
      refine hunused a ha ?_
      rw [Candidate.elements, (isExactly_iff.mp hpath).2, helements]
      simp
    have hbelow (cs : List Candidate) (hcs : ∀ b ∈ cs, b ∈ as) :
        backendOf cs (String.ofList (c.value.toList ++ '/' :: w)) =
          (select Candidate.elements (prefixes cs) c.elements).bind Candidate.service? := by
      rw [backendOf, choose, find?_isExactly_none hcs hexact, Option.none_or, helements,
        select_append_fresh fun b hb ↦ hunused b (hcs b (mem_prefixes.mp hb).1)]
      rfl
    rw [← hbelow bs hsub, h, hbelow as fun _ hb ↦ hb, select_key (mem_prefixes.mpr ⟨hc, htype⟩)]

end Agree

/-! ### What the translation lists -/

theorem mem_foldl_addHostname {hosts acc : List String} {host : String} :
    host ∈ hosts.foldl addHostname acc ↔ host ∈ acc ∨ host ∈ hosts ∧ host ≠ "" := by
  induction hosts generalizing acc with
  | nil => simp
  | cons h hosts ih =>
    rw [foldl_cons, ih, mem_cons]
    unfold addHostname
    split
    · next hold =>
      constructor
      · rintro (hacc | hrest)
        · exact .inl hacc
        · exact .inr ⟨.inr hrest.1, hrest.2⟩
      · rintro (hacc | ⟨rfl | hrest, hne⟩)
        · exact .inl hacc
        · exact .inl (hold.resolve_left hne)
        · exact .inr ⟨hrest, hne⟩
    · next hnew =>
      rw [not_or] at hnew
      rw [mem_append, mem_singleton]
      constructor
      · rintro ((hacc | rfl) | hrest)
        · exact .inl hacc
        · exact .inr ⟨.inl rfl, hnew.1⟩
        · exact .inr ⟨.inr hrest.1, hrest.2⟩
      · rintro (hacc | ⟨rfl | hrest, hne⟩)
        · exact .inl (.inl hacc)
        · exact .inl (.inr rfl)
        · exact .inr ⟨hrest, hne⟩

theorem choose_mem {cs : List Candidate} {path : String} {c : Candidate}
    (h : choose cs path = some c) : c ∈ cs := by
  rw [choose, Option.or_eq_some_iff] at h
  obtain h | ⟨-, h⟩ := h
  · exact mem_of_find?_eq_some h
  · exact (mem_prefixes.mp (select_mem h).1).1

theorem accepts_of_choose {cs : List Candidate} {path : String} {c : Candidate}
    (h : choose cs path = some c) : c.Accepts path := by
  rw [choose, Option.or_eq_some_iff] at h
  unfold Candidate.Accepts
  obtain h | ⟨-, h⟩ := h
  · obtain ⟨htype, hvalue⟩ := isExactly_iff.mp (find?_some h)
    rw [htype]
    exact hvalue
  · obtain ⟨hmem, hprefix⟩ := select_mem h
    rw [(mem_prefixes.mp hmem).2]
    exact hprefix

theorem backendOf_eq_none {cs : List Candidate} {path : String}
    (h : ∀ c ∈ cs, ¬ c.Accepts path) : backendOf cs path = none := by
  cases hchoose : choose cs path with
  | none => rw [backendOf, hchoose, Option.bind_none]
  | some c => exact absurd (accepts_of_choose hchoose) (h c (choose_mem hchoose))

theorem backendOf_nil (path : String) : backendOf [] path = none := rfl

theorem backendOf_placeholder (path : String) :
    backendOf [⟨.pathPrefix, "/", placeholderName, 80⟩] path = none := by
  cases h : choose [⟨.pathPrefix, "/", placeholderName, 80⟩] path with
  | none => rw [backendOf, h, Option.bind_none]
  | some c =>
    rw [mem_singleton.mp (choose_mem h)] at h
    rw [backendOf, h]
    rfl

section Translation

variable {ingresses : List Ingress} (proxyType gatewayName : String) (target : Option String)

theorem mem_hostnames (hplain : Plain ingresses) (host : String) :
    host ∈ (ingressToHttproute proxyType gatewayName target ingresses).route.hostnames ↔
      host ∈ listedHosts ingresses := by
  simp only [ingressToHttproute, buildHttproute, collectIngresses_eq]
  rw [mem_foldl_addHostname]
  simp only [not_mem_nil, false_or, listedHosts]
  refine and_iff_left_of_imp fun h ↦ ?_
  obtain ⟨ing, hing, hhost⟩ := mem_flatMap.mp h
  exact (hplain.host ing hing host hhost).1

def serviceCandidate (p : IngressPath × String) : Candidate :=
  ⟨(ingressPathTypeMap (pathTypeOf p.1)).getD .pathPrefix, pathValue p.1, p.2, portOr80 p.1.backend⟩

theorem hostEntry_candidate (hplain : Plain ingresses) {ing : Ingress} (hing : ing ∈ ingresses)
    {r : IngressRule} (hr : r ∈ ing.rules) {p : IngressPath} (hp : p ∈ r.paths) :
    (hostEntry r.host p).map (·.candidate) =
      (nonEmpty? p.backend.name).map fun n ↦ serviceCandidate (p, n) := by
  obtain ⟨n, hport, hpos⟩ := hplain.port ing hing r hr p hp
  have hportOr : portOr80 p.backend = p.backend.portNumber.getD 80 := by
    have hne : n ≠ 0 := hpos.ne'
    have hkept : nonZero? (some n) = some n := by
      rw [nonZero?, Option.filter_some, if_pos (by simpa using hne)]
    rw [portOr80, hport, hkept]
  have htype : (ingressPathTypeMap (pathTypeOf p)).getD .pathPrefix =
      if p.pathType = some "Exact" then .exact else .pathPrefix := by
    obtain htype | htype := hplain.pathType ing hing r hr p hp <;> rw [pathTypeOf, htype] <;> rfl
  rw [hostEntry, Option.map_map]
  simp only [serviceCandidate, hportOr, htype, pathValue, Function.comp_def]

theorem entriesOf_candidates (hplain : Plain ingresses) :
    (entriesOf ingresses).map (·.candidate) =
      ingresses.flatMap fun ing ↦ ing.services.map serviceCandidate := by
  rw [entriesOf, map_flatMap]
  refine flatMap_congr fun ing hing ↦ ?_
  rw [map_flatMap, Ingress.services, servicesOf, filterMap_flatMap, map_flatMap]
  refine flatMap_congr fun r hr ↦ ?_
  rw [map_filterMap, map_filterMap]
  refine filterMap_congr fun p hp ↦ ?_
  rw [hostEntry_candidate hplain hing hr hp, Option.map_map]
  rfl

theorem routeRules_of_plain (hplain : Plain ingresses) {ing : Ingress} (hing : ing ∈ ingresses)
    (gw : String) : ing.routeRules gw = ing.services.map fun p ↦ pathRule ing p.1 p.2 gw := by
  have hdefault : ing.defaultRules = [] := by
    rw [Ingress.defaultRules, Ingress.fallback, hplain.noDefault ing hing]
    rfl
  rw [Ingress.routeRules, hdefault, append_nil]

theorem routeRules_candidates (hplain : Plain ingresses) (gw : String) :
    (ingresses.flatMap fun ing ↦ ing.routeRules gw).flatMap ruleCandidates =
      (entriesOf ingresses).map (·.candidate) := by
  rw [entriesOf_candidates hplain, flatMap_assoc]
  refine flatMap_congr fun ing hing ↦ ?_
  rw [routeRules_of_plain hplain hing, flatMap_map, ← flatMap_pure_eq_map]
  rfl

theorem routeRules_eq_nil (hplain : Plain ingresses) (gw : String) :
    (ingresses.flatMap fun ing ↦ ing.routeRules gw) = [] ↔ entriesOf ingresses = [] := by
  have hentries : entriesOf ingresses = [] ↔ (entriesOf ingresses).map (·.candidate) = [] :=
    map_eq_nil_iff.symm
  rw [hentries, entriesOf_candidates hplain, flatMap_eq_nil_iff, flatMap_eq_nil_iff]
  refine forall₂_congr fun ing hing ↦ ?_
  rw [routeRules_of_plain hplain hing, map_eq_nil_iff, map_eq_nil_iff]

theorem route_candidates (hplain : Plain ingresses) :
    (ingressToHttproute proxyType gatewayName target ingresses).route.rules.flatMap ruleCandidates =
      if entriesOf ingresses = [] then [⟨.pathPrefix, "/", placeholderName, 80⟩]
      else (entriesOf ingresses).map (·.candidate) := by
  simp only [ingressToHttproute, buildHttproute, collectIngresses_eq, List.isEmpty_iff,
    routeRules_eq_nil hplain]
  split
  · rfl
  · exact routeRules_candidates hplain _

theorem routeBackend_eq (hplain : Plain ingresses) (host path : String) :
    routeBackend (ingressToHttproute proxyType gatewayName target ingresses).route host path =
      if listedHosts ingresses = [] ∨ host ∈ listedHosts ingresses then
        backendOf ((entriesOf ingresses).map (·.candidate)) path
      else none := by
  have hnil : (ingressToHttproute proxyType gatewayName target ingresses).route.hostnames = [] ↔
      listedHosts ingresses = [] := by
    simp only [eq_nil_iff_forall_not_mem, mem_hostnames proxyType gatewayName target hplain]
  rw [routeBackend]
  simp only [hnil, mem_hostnames proxyType gatewayName target hplain, route_candidates _ _ _ hplain]
  split
  · split
    · next hempty => rw [hempty, backendOf_placeholder, map_nil, backendOf_nil]
    · rfl
  · rfl

end Translation

/-! ### The hosts of entries -/

theorem mem_entriesOf {ingresses : List Ingress} {e : HostEntry} :
    e ∈ entriesOf ingresses ↔
      ∃ ing ∈ ingresses, ∃ r ∈ ing.rules, ∃ p ∈ r.paths, hostEntry r.host p = some e := by
  simp only [entriesOf, mem_flatMap, mem_filterMap]

theorem hostEntry_host {host : Option String} {p : IngressPath} {e : HostEntry}
    (h : hostEntry host p = some e) : e.host = host := by
  obtain ⟨name, -, rfl⟩ := Option.map_eq_some_iff.mp h
  rfl

theorem host_mem_listedHosts {ingresses : List Ingress} {e : HostEntry} {host : String}
    (he : e ∈ entriesOf ingresses) (hhost : e.host = some host) : host ∈ listedHosts ingresses := by
  obtain ⟨ing, hing, r, hr, p, -, hentry⟩ := mem_entriesOf.mp he
  rw [hostEntry_host hentry] at hhost
  refine mem_flatMap.mpr ⟨ing, hing, mem_append_right _ ?_⟩
  exact mem_filterMap.mpr ⟨r, hr, hhost⟩

theorem service?_of_mem {ingresses : List Ingress} (hplain : Plain ingresses) {e : HostEntry}
    (he : e ∈ entriesOf ingresses) :
    e.candidate.service? = some (e.candidate.name, e.candidate.port) := by
  obtain ⟨ing, hing, r, hr, p, hp, hentry⟩ := mem_entriesOf.mp he
  obtain ⟨name, hname, rfl⟩ := Option.map_eq_some_iff.mp hentry
  refine if_neg fun hplaceholder ↦ hplain.service ing hing r hr p hp ?_
  rw [← hplaceholder]
  exact (Option.filter_eq_some_iff.mp hname).1

theorem choose_isSome {cs : List Candidate} {c : Candidate} (hc : c ∈ cs) :
    (choose cs c.value).isSome = true := by
  rw [choose, Option.isSome_or, Bool.or_eq_true]
  cases htype : c.type with
  | exact =>
    left
    rw [find?_isSome]
    exact ⟨c, hc, isExactly_iff.mpr ⟨htype, rfl⟩⟩
  | pathPrefix =>
    right
    rw [Option.isSome_iff_ne_none]
    intro hnone
    exact select_eq_none_iff.mp hnone c (mem_prefixes.mpr ⟨hc, htype⟩) prefix_rfl

theorem exists_unlisted (hosts : List String) : ∃ host, host ∉ hosts := by
  obtain ⟨w, -, -, hfresh⟩ := exists_fresh (hosts.map String.toList)
  refine ⟨String.ofList w, fun h ↦ hfresh (mem_map.mpr ⟨_, h, String.toList_ofList⟩)⟩

theorem entriesFor_of_unlisted {ingresses : List Ingress} {host : String}
    (h : host ∉ listedHosts ingresses) :
    entriesFor (entriesOf ingresses) host = (entriesOf ingresses).filter (·.host == none) := by
  have hown : (entriesOf ingresses).filter (·.host == some host) = [] := by
    rw [filter_eq_nil_iff]
    intro e he hhost
    exact h (host_mem_listedHosts he (by simpa using hhost))
  rw [entriesFor, hown]
  rfl

theorem entriesFor_of_hosts {entries : List HostEntry} (h : ∀ e ∈ entries, e.host ≠ none)
    (host : String) : entriesFor entries host = entries.filter (·.host == some host) := by
  have hnone : entries.filter (·.host == none) = [] := by
    rw [filter_eq_nil_iff]
    intro e he hhost
    exact h e he (by simpa using hhost)
  dsimp only [entriesFor]
  split
  · next hown => rw [hnone, List.isEmpty_iff.mp hown]
  · rfl

theorem filter_candidates_subset (entries : List HostEntry) (p : HostEntry → Bool) :
    ∀ c ∈ (entries.filter p).map (·.candidate), c ∈ entries.map (·.candidate) := by
  intro c hc
  obtain ⟨e, he, rfl⟩ := mem_map.mp hc
  exact mem_map_of_mem (mem_filter.mp he).1

/-! ### The comparison -/

theorem hostless_of_preserved {ingresses : List Ingress} (hplain : Plain ingresses)
    (h : ∀ host path, host ∉ listedHosts ingresses → ingressBackend ingresses host path = none) :
    ∀ e ∈ entriesOf ingresses, e.host ≠ none := by
  intro e he hnone
  obtain ⟨host, hhost⟩ := exists_unlisted (listedHosts ingresses)
  have hbackend := h host e.candidate.value hhost
  rw [ingressBackend, entriesFor_of_unlisted hhost] at hbackend
  have hmem : e.candidate ∈ ((entriesOf ingresses).filter (·.host == none)).map (·.candidate) :=
    mem_map_of_mem (mem_filter.mpr ⟨he, by simp [hnone]⟩)
  obtain ⟨c, hc⟩ := Option.isSome_iff_exists.mp (choose_isSome hmem)
  obtain ⟨e', he', rfl⟩ := mem_map.mp (choose_mem hc)
  rw [backendOf, hc, Option.bind_some, service?_of_mem hplain (mem_filter.mp he').1] at hbackend
  cases hbackend

theorem routeBackend_eq_ingressBackend_iff {ingresses : List Ingress} (hplain : Plain ingresses)
    (proxyType gatewayName : String) (target : Option String) :
    (∀ host path,
      routeBackend (ingressToHttproute proxyType gatewayName target ingresses).route host path =
        ingressBackend ingresses host path) ↔ HostsAgree ingresses := by
  simp only [routeBackend_eq _ _ _ hplain]
  by_cases hlisted : listedHosts ingresses = []
  · -- Without hosts all entries are for every request.
    refine iff_of_true (fun host path ↦ ?_) ⟨fun h ↦ absurd hlisted h, by simp [hlisted]⟩
    have hunlisted : host ∉ listedHosts ingresses := by simp [hlisted]
    have hall : (entriesOf ingresses).filter (·.host == none) = entriesOf ingresses := by
      rw [filter_eq_self]
      intro e he
      cases hhost : e.host with
      | none => rfl
      | some host' => exact absurd (host_mem_listedHosts he hhost) (by simp [hlisted])
    rw [if_pos (.inl hlisted), ingressBackend, entriesFor_of_unlisted hunlisted, hall]
  · constructor
    · intro h
      have hhostless : ∀ e ∈ entriesOf ingresses, e.host ≠ none := by
        refine hostless_of_preserved hplain fun host path hhost ↦ ?_
        rw [← h host path, if_neg (by simp [hlisted, hhost])]
      refine ⟨fun _ ↦ hhostless, fun host hhost e he ↦ ?_⟩
      refine agree_of_backendOf_eq (filter_candidates_subset _ _) (fun path ↦ ?_)
        (mem_map_of_mem he)
      have hpath := h host path
      rw [if_pos (.inr hhost), ingressBackend, entriesFor_of_hosts hhostless] at hpath
      exact hpath.symm
    · intro h host path
      rw [ingressBackend, entriesFor_of_hosts (h.hostless hlisted)]
      split
      · next hcovered =>
        have hhost := hcovered.resolve_left hlisted
        refine (backendOf_eq_of_agree (filter_candidates_subset _ _) (fun c hc ↦ ?_) path).symm
        obtain ⟨e, he, rfl⟩ := mem_map.mp hc
        exact h.same host hhost e he
      · next hother =>
        have hown : (entriesOf ingresses).filter (·.host == some host) = [] := by
          rw [filter_eq_nil_iff]
          intro e he hhost
          exact hother (.inr (host_mem_listedHosts he (by simpa using hhost)))
        rw [hown, map_nil, backendOf_nil]

/-- The translation preserves the routing of a request exactly where the rules of one host change
nothing for another; then no backend is chosen for a request that no rule matches. -/
theorem routing_preserved_iff (showRefs : List SourceRef → String) (r : TranslateRequest)
    (hkind : isIngressRequest r = true) (hplain : Plain r.sourceIngresses) :
    (∀ host path,
      routeBackend (translateToBnk showRefs r).httproute host path =
          ingressBackend r.sourceIngresses host path ∧
        ((∀ e ∈ entriesFor (entriesOf r.sourceIngresses) host, ¬ e.candidate.Accepts path) →
          routeBackend (translateToBnk showRefs r).httproute host path = none)) ↔
      HostsAgree r.sourceIngresses := by
  rw [← routeBackend_eq_ingressBackend_iff hplain r.proxyType (gatewayNameOf r) r.targetNamespace]
  have hroute : (translateToBnk showRefs r).httproute =
      (ingressToHttproute r.proxyType (gatewayNameOf r) r.targetNamespace r.sourceIngresses).route := by
    rw [translateToBnk, translateSources, if_pos hkind]
  rw [hroute]
  refine forall₂_congr fun host path ↦ and_iff_left_of_imp fun hsame hnone ↦ ?_
  rw [hsame, ingressBackend]
  refine backendOf_eq_none fun c hc ↦ ?_
  obtain ⟨e, he, rfl⟩ := List.mem_map.mp hc
  exact hnone e he

def ingressOf (backends : List (String × String)) : Ingress :=
  { name := "shop", ns := "apps"
    rules := backends.map fun b ↦
      { host := some b.1
        paths := [{ path := some "/", pathType := some "Prefix"
                    backend := { name := some b.2, portNumber := some 80 } }] } }

def requestOf (backends : List (String × String)) : TranslateRequest :=
  { proxyType := "nginx", sourceKind := "IngressClass", sourceIngresses := [ingressOf backends] }

/-- Two hosts with the same backend: a path of the second one. -/
theorem routing_preserved_sameBackend :
    routeBackend
        (translateToBnk (fun _ ↦ "") (requestOf [("a.test", "web"), ("b.test", "web")])).httproute
        "b.test" "/cart" =
      ingressBackend [ingressOf [("a.test", "web"), ("b.test", "web")]] "b.test" "/cart" ∧
    ingressBackend [ingressOf [("a.test", "web"), ("b.test", "web")]] "b.test" "/cart" =
      some ("web", 80) := by
  refine ⟨((routing_preserved_iff _ _ rfl ?_).mpr ?_ "b.test" "/cart").1, by decide +kernel⟩
  · exact ⟨⟨"apps", by decide +kernel⟩, by decide +kernel, by decide +kernel, by decide +kernel,
      by decide +kernel, by decide +kernel⟩
  · exact ⟨by decide +kernel, by decide +kernel⟩

def DistinctMatches (entries : List HostEntry) : Prop :=
  entries.Pairwise fun e f ↦
    e.host ≠ f.host ∨ e.candidate.type ≠ f.candidate.type ∨ e.candidate.value ≠ f.candidate.value

instance (entries : List HostEntry) : Decidable (DistinctMatches entries) :=
  inferInstanceAs (Decidable (List.Pairwise _ entries))

/-- The rule of the first host takes the requests for the second one. -/
theorem routing_crosses_hosts :
    Plain [ingressOf [("a.test", "shop-a"), ("b.test", "shop-b")]] ∧
      DistinctMatches (entriesOf [ingressOf [("a.test", "shop-a"), ("b.test", "shop-b")]]) ∧
      ingressBackend [ingressOf [("a.test", "shop-a"), ("b.test", "shop-b")]] "b.test" "/" =
        some ("shop-b", 80) ∧
      routeBackend (translateToBnk (fun _ ↦ "")
          (requestOf [("a.test", "shop-a"), ("b.test", "shop-b")])).httproute "b.test" "/" =
        some ("shop-a", 80) := by
  refine ⟨⟨⟨"apps", by decide +kernel⟩, by decide +kernel, by decide +kernel, by decide +kernel,
    by decide +kernel, by decide +kernel⟩, by decide +kernel, by decide +kernel, by decide +kernel⟩

end BnkForge.Proxy
