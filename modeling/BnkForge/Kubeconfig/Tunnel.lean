import BnkForge.Kubeconfig.Normalizer
import BnkForge.Lib.PythonUrl

/-!
# Kubeconfigs for an SSH tunnel

`rewrite_kubeconfig_for_tunnel` (`backend/services/kubeconfig_normalizer.py:215–270`). The server of every
cluster becomes the local end of the tunnel. A rewritten cluster that is verified has the local end as
its host, so that a second rewrite verifies that host.
-/

namespace BnkForge.Kubeconfig

open Python Yaml List

section

variable (repr : Yaml → String) (nfkc : List Char → List Char) (isIpv6 : List Char → Bool)

/-- `str(cluster.get("server") or "")`. -/
def originalServer (cluster : Items) : String :=
  if (get cluster "server").truthy then (get cluster "server").toText repr else ""

/-- `urlparse(original_server).hostname`. -/
def originalHost (cluster : Items) : Except Raised (Option (List Char)) :=
  if (originalServer repr cluster).isEmpty then .ok none
  else hostname nfkc isIpv6 (originalServer repr cluster).toList

/-- `has_ca`. -/
def hasCa (cluster : Items) : Bool :=
  (get cluster "certificate-authority-data").truthy || (get cluster "certificate-authority").truthy

/-- `was_insecure`. -/
def wasInsecure (cluster : Items) : Bool := (get cluster "insecure-skip-tls-verify").truthy

def moved (tunnelPort : Int) (cluster : Items) : Items :=
  assign cluster "server" (.scalar (.str ("https://127.0.0.1:" ++ toString tunnelPort)))

def restored (host : List Char) (cluster : Items) : Items :=
  pop (assign cluster "tls-server-name" (.scalar (.str (String.ofList host)))) "insecure-skip-tls-verify"

def skipped (cluster : Items) : Items :=
  pop (pop (pop (assign cluster "insecure-skip-tls-verify" (.scalar (.bool true)))
    "certificate-authority-data") "certificate-authority") "tls-server-name"

def rewrittenAs (tunnelPort : Int) (host : Option (List Char)) (cluster : Items) : Items :=
  match host with
  | some host =>
    if hasCa cluster && !wasInsecure cluster then restored host (moved tunnelPort cluster)
    else skipped (moved tunnelPort cluster)
  | none => skipped (moved tunnelPort cluster)

/-- The body of the loop. -/
def rewriteCluster (tunnelPort : Int) (cluster : Items) : Except Raised Items :=
  (originalHost repr nfkc isIpv6 cluster).map fun host ↦ rewrittenAs tunnelPort host cluster

def rewriteEntry (tunnelPort : Int) (entry : Yaml) : Except Raised Yaml :=
  match entry with
  | .dict items =>
    match (get items "cluster").dict? with
    | none => .ok entry
    | some cluster => (rewriteCluster repr nfkc isIpv6 tunnelPort cluster).map fun cluster ↦
        .dict (adjust "cluster" (fun _ ↦ .dict cluster) items)
  | entry => .ok entry

/-- The loop over `doc.get("clusters", []) or []`. -/
def rewriteDocument (tunnelPort : Int) (doc : Items) : Except Raised Items :=
  if (get doc "clusters").truthy then
    match (get doc "clusters").iterate with
    | .error e => .error e
    | .ok entries => (entries.mapM (rewriteEntry repr nfkc isIpv6 tunnelPort)).map fun entries ↦
        adjust "clusters" (putBack entries) doc
  else .ok doc

end

inductive RewriteError
  | load (e : LoadError)
  | raised (e : Raised)
  deriving DecidableEq, Repr

section

variable (load : String → Except LoadError Yaml) (dump : Yaml → String) (repr : Yaml → String)
  (nfkc : List Char → List Char) (isIpv6 : List Char → Bool)

/-- `yaml.safe_load(yaml_text) or {}`, if it has a `get`. -/
def loadedDocument (yamlText : String) : Except RewriteError Items :=
  match load yamlText with
  | .error e => .error (.load e)
  | .ok (.dict doc) => .ok doc
  | .ok value => if value.truthy then .error (.raised .attributeError) else .ok []

def rewrittenDocument (yamlText : String) (tunnelPort : Int) : Except RewriteError Items :=
  match loadedDocument load yamlText with
  | .error e => .error e
  | .ok doc =>
    match rewriteDocument repr nfkc isIpv6 tunnelPort doc with
    | .error e => .error (.raised e)
    | .ok doc => .ok doc

/-- `rewrite_kubeconfig_for_tunnel`. -/
def rewriteKubeconfigForTunnel (yamlText : String) (tunnelPort : Int) : Except RewriteError String :=
  (rewrittenDocument load repr nfkc isIpv6 yamlText tunnelPort).map fun doc ↦ dump (.dict doc)

end

/-! ### One cluster -/

section

variable {repr : Yaml → String} {nfkc : List Char → List Char} {isIpv6 : List Char → Bool}
  {cluster : Items} {host : List Char}

theorem get_restored (key : String) : get (restored host cluster) key =
    if key = "insecure-skip-tls-verify" then .scalar .none
    else if key = "tls-server-name" then .scalar (.str (String.ofList host)) else get cluster key := by
  rw [restored, get_pop, get_assign]

theorem get_skipped (key : String) : get (skipped cluster) key =
    if key = "tls-server-name" then .scalar .none
    else if key = "certificate-authority" then .scalar .none
    else if key = "certificate-authority-data" then .scalar .none
    else if key = "insecure-skip-tls-verify" then .scalar (.bool true) else get cluster key := by
  rw [skipped, get_pop, get_pop, get_pop, get_assign]

theorem get_moved (port : Int) (key : String) : get (moved port cluster) key =
    if key = "server" then .scalar (.str ("https://127.0.0.1:" ++ toString port)) else get cluster key :=
  get_assign

theorem mem_keys_moved (port : Int) : Scalar.str "server" ∈ (moved port cluster).map Prod.fst := by
  rw [moved, assign, Dict.keys_setItems]
  split
  · assumption
  · exact mem_append_right _ (mem_singleton_self _)

theorem moved_moved (p q : Int) : moved q (moved p cluster) = moved q cluster := assign_assign_self

theorem moved_restored (p q : Int) :
    moved q (restored host (moved p cluster)) = restored host (moved q cluster) := by
  rw [restored, moved, assign_pop (by decide), assign_assign_of_mem (mem_keys_moved p) (by decide)]
  exact congrArg (restored host) (moved_moved p q)

theorem moved_skipped (p q : Int) : moved q (skipped (moved p cluster)) = skipped (moved q cluster) := by
  rw [skipped, moved, assign_pop (by decide), assign_pop (by decide), assign_pop (by decide),
    assign_assign_of_mem (mem_keys_moved p) (by decide)]
  exact congrArg skipped (moved_moved p q)

theorem restored_restored (host' : List Char) :
    restored host' (restored host cluster) = restored host' cluster := by
  rw [restored, restored, assign_pop (by decide), assign_assign_self, pop_pop_self, restored]

theorem skipped_skipped : skipped (skipped cluster) = skipped cluster := by
  rw [skipped, skipped, assign_pop (by decide), assign_pop (by decide), assign_pop (by decide),
    assign_assign_self]
  simp only [pop, filter_filter]
  refine filter_congr fun i _ ↦ ?_
  rw [Bool.eq_iff_iff]
  simp only [Bool.and_eq_true]
  tauto

theorem isEmpty_of_toList_ne_nil {s : String} (h : s.toList ≠ []) : s.isEmpty = false := by
  rw [← Bool.not_eq_true, String.isEmpty_iff]
  rintro rfl
  exact h rfl

theorem originalHost_moved (port : Int) (h : get cluster "server" =
    .scalar (.str ("https://127.0.0.1:" ++ toString port))) :
    originalHost repr nfkc isIpv6 cluster = .ok (some "127.0.0.1".toList) := by
  have hne : ("https://127.0.0.1:" ++ toString port).isEmpty = false := by
    refine isEmpty_of_toList_ne_nil ?_
    rw [String.toList_append]
    exact cons_ne_nil _ _
  have hserver : originalServer repr cluster = "https://127.0.0.1:" ++ toString port := by
    have htruthy : (Yaml.scalar (.str ("https://127.0.0.1:" ++ toString port))).truthy = true :=
      congrArg Bool.not hne
    rw [originalServer, h, if_pos htruthy, toText]
  rw [originalHost, hserver, hne, if_neg Bool.false_ne_true, String.toList_append]
  exact hostname_loopback nfkc isIpv6 (isPortChar_toString port)

theorem rewriteCluster_restored (p q : Int) (hca : hasCa cluster = true) :
    rewriteCluster repr nfkc isIpv6 q (restored host (moved p cluster)) =
      .ok (restored "127.0.0.1".toList (moved q cluster)) := by
  have hserver : get (restored host (moved p cluster)) "server" =
      .scalar (.str ("https://127.0.0.1:" ++ toString p)) := by
    rw [get_restored, get_moved]
    rfl
  have hca' : hasCa (restored host (moved p cluster)) = true := by
    rw [← hca]
    simp only [hasCa, get_restored, get_moved]
    rfl
  have hsecure : wasInsecure (restored host (moved p cluster)) = false := by
    rw [wasInsecure, get_restored]
    rfl
  rw [rewriteCluster, originalHost_moved p hserver, Except.map, rewrittenAs, hca', hsecure]
  refine congrArg Except.ok ?_
  rw [Bool.not_false, Bool.and_self, if_pos rfl, moved_restored, restored_restored]

theorem rewriteCluster_skipped (p q : Int) : rewriteCluster repr nfkc isIpv6 q (skipped (moved p cluster)) =
    .ok (skipped (moved q cluster)) := by
  have hserver : get (skipped (moved p cluster)) "server" =
      .scalar (.str ("https://127.0.0.1:" ++ toString p)) := by
    rw [get_skipped, get_moved]
    rfl
  have hca : hasCa (skipped (moved p cluster)) = false := by
    simp only [hasCa, get_skipped]
    rfl
  rw [rewriteCluster, originalHost_moved p hserver, Except.map, rewrittenAs, hca]
  refine congrArg Except.ok ?_
  rw [Bool.false_and, if_neg Bool.false_ne_true, moved_skipped, skipped_skipped]

end

/-! ### Documents -/

section

variable {repr : Yaml → String} {nfkc : List Char → List Char} {isIpv6 : List Char → Bool}
  {doc doc' : Items} {port : Int} {entries : List Yaml}

variable (repr nfkc isIpv6) in
/-- What becomes of a cluster whose server can be parsed. -/
def rewritten (tunnelPort : Int) (cluster : Items) : Items :=
  match originalHost repr nfkc isIpv6 cluster with
  | .ok host => rewrittenAs tunnelPort host cluster
  | .error _ => cluster

variable (repr nfkc isIpv6) in
/-- The clusters can be iterated, and their servers can be parsed. -/
def Rewritable (doc : Items) : Prop :=
  ((get doc "clusters").truthy = true → ∃ entries, (get doc "clusters").iterate = .ok entries) ∧
    ∀ cluster ∈ sectionItems "clusters" "cluster" doc, ∃ host, originalHost repr nfkc isIpv6 cluster = .ok host

theorem rewriteCluster_eq_ok {cluster cluster' : Items} :
    rewriteCluster repr nfkc isIpv6 port cluster = .ok cluster' ↔
      (∃ host, originalHost repr nfkc isIpv6 cluster = .ok host) ∧
        cluster' = rewritten repr nfkc isIpv6 port cluster := by
  unfold rewriteCluster rewritten
  cases originalHost repr nfkc isIpv6 cluster with
  | error e => exact iff_of_false (by rintro ⟨⟩) (by rintro ⟨⟨_, ⟨⟩⟩, -⟩)
  | ok host =>
    constructor
    · rintro ⟨⟩
      exact ⟨⟨host, rfl⟩, rfl⟩
    · rintro ⟨-, rfl⟩
      rfl

theorem rewriteEntry_eq_ok (entry entry' : Yaml) : rewriteEntry repr nfkc isIpv6 port entry = .ok entry' ↔
    (∀ cluster, entryItem "cluster" entry = some cluster →
      ∃ host, originalHost repr nfkc isIpv6 cluster = .ok host) ∧
      entry' = adjustEntry "cluster" (rewritten repr nfkc isIpv6 port) entry := by
  cases entry with
  | dict items =>
    rw [rewriteEntry, entryItem, dict?, Option.bind_some, adjustEntry, onDict]
    cases hget : get items "cluster" with
    | dict cluster =>
      have hadjust : adjust "cluster" (fun _ ↦ dict (rewritten repr nfkc isIpv6 port cluster)) items =
          adjust "cluster" (onDict (rewritten repr nfkc isIpv6 port)) items :=
        adjust_congr (by rw [hget]; rfl)
      simp only [dict?, Option.some.injEq, forall_eq', ← hadjust]
      constructor
      · intro h
        cases hcluster : rewriteCluster repr nfkc isIpv6 port cluster with
        | error e =>
          rw [hcluster] at h
          cases h
        | ok cluster' =>
          obtain ⟨hhost, rfl⟩ := rewriteCluster_eq_ok.mp hcluster
          rw [hcluster] at h
          cases h
          exact ⟨hhost, rfl⟩
      · rintro ⟨hhost, rfl⟩
        rw [rewriteCluster_eq_ok.mpr ⟨hhost, rfl⟩]
        rfl
    | _ =>
      have hadjust : adjust "cluster" (onDict (rewritten repr nfkc isIpv6 port)) items = items :=
        (adjust_congr (g := id) (by rw [hget]; rfl)).trans (adjust_id _ _)
      rw [hadjust]
      simp [dict?, eq_comm]
  | _ =>
    rw [rewriteEntry, Except.ok.injEq, eq_comm]
    · refine (and_iff_right ?_).symm
      rintro _ ⟨⟩
    · rintro _ ⟨⟩

theorem rewriteDocument_eq_ok : rewriteDocument repr nfkc isIpv6 port doc = .ok doc' ↔
    Rewritable repr nfkc isIpv6 doc ∧
      doc' = adjustSection "clusters" "cluster" (rewritten repr nfkc isIpv6 port) doc := by
  unfold rewriteDocument Rewritable
  by_cases htruthy : (get doc "clusters").truthy = true
  · rw [if_pos htruthy]
    cases hiterate : (get doc "clusters").iterate with
    | error e => simp [htruthy]
    | ok entries =>
      have hitems : (∀ entry ∈ entries, ∀ cluster, entryItem "cluster" entry = some cluster →
          ∃ host, originalHost repr nfkc isIpv6 cluster = .ok host) ↔
          ∀ cluster ∈ sectionItems "clusters" "cluster" doc,
            ∃ host, originalHost repr nfkc isIpv6 cluster = .ok host := by
        rw [sectionItems_of_iterate hiterate]
        constructor
        · intro h cluster hmem
          obtain ⟨entry, hentry, hcluster⟩ := mem_filterMap.mp hmem
          exact h entry hentry cluster hcluster
        · intro h entry hentry cluster hcluster
          exact h cluster (mem_filterMap.mpr ⟨entry, hentry, hcluster⟩)
      simp only [htruthy, forall_const, Except.ok.injEq, exists_eq', true_and, ← hitems]
      constructor
      · intro h
        cases hentries : entries.mapM (rewriteEntry repr nfkc isIpv6 port) with
        | error e =>
          rw [hentries] at h
          cases h
        | ok entries' =>
          obtain ⟨hall, rfl⟩ := (ExceptResult.mapM_eq_ok_map rewriteEntry_eq_ok).mp hentries
          rw [hentries] at h
          cases h
          exact ⟨hall, adjust_putBack hiterate⟩
      · rintro ⟨hall, rfl⟩
        rw [(ExceptResult.mapM_eq_ok_map rewriteEntry_eq_ok).mpr ⟨hall, rfl⟩]
        exact congrArg Except.ok (adjust_putBack hiterate)
  · rw [if_neg htruthy, adjustSection_of_falsy htruthy, sectionItems_of_falsy htruthy]
    simp [htruthy, eq_comm]

end

/-! ### Identities -/

section

variable (repr : Yaml → String) (nfkc : List Char → List Char) (isIpv6 : List Char → Bool)

/-- A cluster is verified, against its certificate authority. -/
def Verifiable (cluster : Items) (host : List Char) : Prop :=
  hasCa cluster = true ∧ wasInsecure cluster = false ∧ originalHost repr nfkc isIpv6 cluster = .ok (some host)

def verifiedName (cluster : Items) : Yaml :=
  if (get cluster "tls-server-name").truthy then get cluster "tls-server-name"
  else
    match originalHost repr nfkc isIpv6 cluster with
    | .ok (some host) => .scalar (.str (String.ofList host))
    | _ => .scalar .none

/-- A cluster that is verified stays so, with the same certificate authority and against the same name,
and one that is not verified stays so too. -/
structure KeepsIdentity (cluster cluster' : Items) : Prop where
  verified : ∀ host, Verifiable repr nfkc isIpv6 cluster host → wasInsecure cluster' = false ∧
    get cluster' "certificate-authority-data" = get cluster "certificate-authority-data" ∧
    get cluster' "certificate-authority" = get cluster "certificate-authority" ∧
    verifiedName repr nfkc isIpv6 cluster' = verifiedName repr nfkc isIpv6 cluster
  insecure : wasInsecure cluster = true → wasInsecure cluster' = true

def IsLocal (cluster : Items) : Prop :=
  ∀ host, Verifiable repr nfkc isIpv6 cluster host → host = "127.0.0.1".toList ∧
    ((get cluster "tls-server-name").truthy = true →
      get cluster "tls-server-name" = .scalar (.str "127.0.0.1"))

variable {repr nfkc isIpv6} {cluster : Items} {host : List Char} {port p q : Int}

theorem rewritten_of_verifiable (h : Verifiable repr nfkc isIpv6 cluster host) :
    rewritten repr nfkc isIpv6 port cluster = restored host (moved port cluster) := by
  obtain ⟨hca, hsecure, hhost⟩ := h
  rw [rewritten, hhost]
  dsimp only
  rw [rewrittenAs, hca, hsecure]
  rfl

theorem rewritten_of_not_verifiable (hparse : ∃ host, originalHost repr nfkc isIpv6 cluster = .ok host)
    (h : ∀ host, ¬ Verifiable repr nfkc isIpv6 cluster host) :
    rewritten repr nfkc isIpv6 port cluster = skipped (moved port cluster) := by
  obtain ⟨host, hhost⟩ := hparse
  rw [rewritten, hhost]
  cases host with
  | none => rfl
  | some host =>
    refine if_neg fun hboth ↦ h host ?_
    rw [Bool.and_eq_true, Bool.not_eq_true'] at hboth
    exact ⟨hboth.1, hboth.2, hhost⟩

theorem host_ne_nil (h : originalHost repr nfkc isIpv6 cluster = .ok (some host)) : host ≠ [] := by
  unfold originalHost at h
  split at h
  · cases h
  · exact hostname_ne_nil h

theorem verifiedName_restored (hne : host ≠ []) :
    verifiedName repr nfkc isIpv6 (restored host cluster) = .scalar (.str (String.ofList host)) := by
  have htruthy : (Yaml.scalar (.str (String.ofList host))).truthy = true := by
    refine congrArg Bool.not (isEmpty_of_toList_ne_nil ?_)
    rwa [String.toList_ofList]
  have hget : get (restored host cluster) "tls-server-name" = .scalar (.str (String.ofList host)) := by
    rw [get_restored]
    rfl
  rw [verifiedName, hget, if_pos htruthy]

theorem keepsIdentity_iff (hparse : ∃ host, originalHost repr nfkc isIpv6 cluster = .ok host) :
    KeepsIdentity repr nfkc isIpv6 cluster (rewritten repr nfkc isIpv6 port cluster) ↔
      ∀ host, Verifiable repr nfkc isIpv6 cluster host →
        (get cluster "tls-server-name").truthy = true →
          get cluster "tls-server-name" = .scalar (.str (String.ofList host)) := by
  constructor
  · intro h host hverifiable htruthy
    have hname := (h.verified host hverifiable).2.2.2
    rw [rewritten_of_verifiable hverifiable, verifiedName_restored (host_ne_nil hverifiable.2.2),
      verifiedName, if_pos htruthy] at hname
    exact hname.symm
  · intro h
    refine ⟨fun host hverifiable ↦ ?_, fun hinsecure ↦ ?_⟩
    · have hname : verifiedName repr nfkc isIpv6 cluster = .scalar (.str (String.ofList host)) := by
        rw [verifiedName]
        split
        · next htruthy => exact h host hverifiable htruthy
        · rw [hverifiable.2.2]
      rw [rewritten_of_verifiable hverifiable, verifiedName_restored (host_ne_nil hverifiable.2.2), hname]
      refine ⟨?_, ?_, ?_, rfl⟩
      · rw [wasInsecure, get_restored]
        rfl
      · rw [get_restored, get_moved]
        rfl
      · rw [get_restored, get_moved]
        rfl
    · have hnot : ∀ host, ¬ Verifiable repr nfkc isIpv6 cluster host := by
        rintro host ⟨-, hsecure, -⟩
        rw [hinsecure] at hsecure
        cases hsecure
      rw [rewritten_of_not_verifiable hparse hnot, wasInsecure, get_skipped]
      rfl

theorem rewritten_rewritten_iff (hparse : ∃ host, originalHost repr nfkc isIpv6 cluster = .ok host) :
    rewritten repr nfkc isIpv6 q (rewritten repr nfkc isIpv6 p cluster) = rewritten repr nfkc isIpv6 q cluster ↔
      ∀ host, Verifiable repr nfkc isIpv6 cluster host → host = "127.0.0.1".toList := by
  by_cases hverifiable : ∃ host, Verifiable repr nfkc isIpv6 cluster host
  · obtain ⟨host, hverifiable⟩ := hverifiable
    have hagain : rewriteCluster repr nfkc isIpv6 q (restored host (moved p cluster)) =
        .ok (restored "127.0.0.1".toList (moved q cluster)) := rewriteCluster_restored p q hverifiable.1
    rw [rewritten_of_verifiable hverifiable, ← (rewriteCluster_eq_ok.mp hagain).2,
      rewritten_of_verifiable hverifiable]
    constructor
    · intro h host' hverifiable'
      have hname := congrArg (fun cluster ↦ get cluster "tls-server-name") h
      simp only [get_restored] at hname
      have hhost : "127.0.0.1".toList = host :=
        String.ofList_injective (Scalar.str.inj (Yaml.scalar.inj hname))
      rw [hhost]
      exact (Option.some.inj (Except.ok.inj (hverifiable.2.2.symm.trans hverifiable'.2.2))).symm
    · intro h
      rw [h host hverifiable]
  · rw [not_exists] at hverifiable
    have hagain : rewriteCluster repr nfkc isIpv6 q (skipped (moved p cluster)) =
        .ok (skipped (moved q cluster)) := rewriteCluster_skipped p q
    rw [rewritten_of_not_verifiable hparse hverifiable, ← (rewriteCluster_eq_ok.mp hagain).2,
      rewritten_of_not_verifiable hparse hverifiable]
    exact iff_of_true rfl fun host h ↦ absurd h (hverifiable host)

theorem originalHost_rewritten (hparse : ∃ host, originalHost repr nfkc isIpv6 cluster = .ok host) :
    originalHost repr nfkc isIpv6 (rewritten repr nfkc isIpv6 p cluster) = .ok (some "127.0.0.1".toList) := by
  refine originalHost_moved p ?_
  by_cases hverifiable : ∃ host, Verifiable repr nfkc isIpv6 cluster host
  · obtain ⟨host, hverifiable⟩ := hverifiable
    rw [rewritten_of_verifiable hverifiable, get_restored, get_moved]
    rfl
  · rw [rewritten_of_not_verifiable hparse (not_exists.mp hverifiable), get_skipped, get_moved]
    rfl

theorem Rewritable.adjustSection {doc : Items} (h : Rewritable repr nfkc isIpv6 doc) :
    Rewritable repr nfkc isIpv6
      (adjustSection "clusters" "cluster" (rewritten repr nfkc isIpv6 p) doc) := by
  constructor
  · rw [Yaml.adjustSection, get_adjust rfl, truthy_onElements, iterate_onElements_adjustEntry]
    intro htruthy
    obtain ⟨entries, hiterate⟩ := h.1 htruthy
    exact ⟨_, by rw [hiterate]; rfl⟩
  · rw [sectionItems_adjustSection]
    intro cluster' hmem'
    obtain ⟨cluster, hmem, rfl⟩ := mem_map.mp hmem'
    exact ⟨_, originalHost_rewritten (h.2 cluster hmem)⟩

theorem isLocal_iff (p q : Int) {doc : Items} (h : Rewritable repr nfkc isIpv6 doc) :
    (∀ cluster ∈ sectionItems "clusters" "cluster" doc, IsLocal repr nfkc isIpv6 cluster) ↔
      List.Forall₂ (KeepsIdentity repr nfkc isIpv6) (sectionItems "clusters" "cluster" doc)
        ((sectionItems "clusters" "cluster" doc).map (rewritten repr nfkc isIpv6 p)) ∧
      adjustSection "clusters" "cluster" (rewritten repr nfkc isIpv6 q ∘ rewritten repr nfkc isIpv6 p) doc =
        adjustSection "clusters" "cluster" (rewritten repr nfkc isIpv6 q) doc := by
  rw [adjustSection_eq_iff, forall₂_map_right_iff, forall₂_same, ← forall₂_and]
  refine forall₂_congr fun cluster hmem ↦ ?_
  have hparse := h.2 cluster hmem
  rw [keepsIdentity_iff hparse, Function.comp_apply, rewritten_rewritten_iff hparse, IsLocal]
  constructor
  · intro hlocal
    refine ⟨fun host hverifiable htruthy ↦ ?_, fun host hverifiable ↦ (hlocal host hverifiable).1⟩
    rw [(hlocal host hverifiable).2 htruthy, (hlocal host hverifiable).1, String.ofList_toList]
  · rintro ⟨hname, hhost⟩ host hverifiable
    refine ⟨hhost host hverifiable, fun htruthy ↦ ?_⟩
    rw [hname host hverifiable htruthy, hhost host hverifiable, String.ofList_toList]

end

/-! ### Texts -/

section

variable (load : String → Except LoadError Yaml) (dump : Yaml → String) (repr : Yaml → String)
  (nfkc : List Char → List Char) (isIpv6 : List Char → Bool) (p q : Int) (yamlText : String)

/-- A rewrite for one port gives a document with the identities of its clusters kept and all else
unchanged, from which a rewrite for another port makes what it makes of the text. -/
def RewritesSoundly : Prop :=
  ∃ input doc, loadedDocument load yamlText = .ok input ∧
    rewrittenDocument load repr nfkc isIpv6 yamlText p = .ok doc ∧
    List.Forall₂ (KeepsIdentity repr nfkc isIpv6) (sectionItems "clusters" "cluster" input)
      (sectionItems "clusters" "cluster" doc) ∧
    adjustSection "clusters" "cluster" (fun _ ↦ []) doc =
      adjustSection "clusters" "cluster" (fun _ ↦ []) input ∧
    rewrittenDocument load repr nfkc isIpv6 (dump (.dict doc)) q =
      rewrittenDocument load repr nfkc isIpv6 yamlText q

/-- The document can be rewritten, and its verified clusters are those of the local machine. -/
def LocalDocument : Prop :=
  ∃ input, loadedDocument load yamlText = .ok input ∧ Rewritable repr nfkc isIpv6 input ∧
    ∀ cluster ∈ sectionItems "clusters" "cluster" input, IsLocal repr nfkc isIpv6 cluster

variable {load dump repr nfkc isIpv6 p q yamlText}

theorem rewrittenDocument_of_loaded {input : Items} (h : loadedDocument load yamlText = .ok input) (port : Int) :
    rewrittenDocument load repr nfkc isIpv6 yamlText port =
      (rewriteDocument repr nfkc isIpv6 port input).mapError .raised := by
  rw [rewrittenDocument, h]
  dsimp only
  cases rewriteDocument repr nfkc isIpv6 port input <;> rfl

theorem rewrittenDocument_eq_ok {input doc : Items} (h : loadedDocument load yamlText = .ok input) {port : Int} :
    rewrittenDocument load repr nfkc isIpv6 yamlText port = .ok doc ↔
      Rewritable repr nfkc isIpv6 input ∧
        doc = adjustSection "clusters" "cluster" (rewritten repr nfkc isIpv6 port) input := by
  rw [rewrittenDocument_of_loaded h, ← rewriteDocument_eq_ok]
  cases rewriteDocument repr nfkc isIpv6 port input with
  | error e => exact iff_of_false (by rintro ⟨⟩) (by rintro ⟨⟩)
  | ok doc' =>
    constructor
    · rintro ⟨⟩
      rfl
    · rintro ⟨⟩
      rfl

theorem rewrittenDocument_of_rewritable {input : Items} (h : loadedDocument load yamlText = .ok input)
    (hrewritable : Rewritable repr nfkc isIpv6 input) (port : Int) :
    rewrittenDocument load repr nfkc isIpv6 yamlText port =
      .ok (adjustSection "clusters" "cluster" (rewritten repr nfkc isIpv6 port) input) :=
  (rewrittenDocument_eq_ok h).mpr ⟨hrewritable, rfl⟩

/-- Rewriting is sound if and only if nothing but the local machine is verified, where what is dumped is
loaded again as it is. -/
theorem rewritesSoundly_iff
    (hround : ∀ input doc, loadedDocument load yamlText = .ok input →
      rewriteDocument repr nfkc isIpv6 p input = .ok doc → load (dump (.dict doc)) = .ok (.dict doc)) :
    RewritesSoundly load dump repr nfkc isIpv6 p q yamlText ↔
      LocalDocument load repr nfkc isIpv6 yamlText := by
  unfold RewritesSoundly LocalDocument
  refine exists_congr fun input ↦ ?_
  have hloaded : ∀ doc, loadedDocument load yamlText = .ok input → Rewritable repr nfkc isIpv6 input →
      doc = adjustSection "clusters" "cluster" (rewritten repr nfkc isIpv6 p) input →
      loadedDocument load (dump (.dict doc)) = .ok doc := by
    intro doc hload hrewritable hdoc
    rw [loadedDocument, hround input doc hload (rewriteDocument_eq_ok.mpr ⟨hrewritable, hdoc⟩)]
  constructor
  · rintro ⟨doc, hload, hdoc, hkeep, -, hsame⟩
    obtain ⟨hrewritable, hdoc'⟩ := (rewrittenDocument_eq_ok hload).mp hdoc
    refine ⟨hload, hrewritable, (isLocal_iff p q hrewritable).mpr ⟨?_, ?_⟩⟩
    · rwa [hdoc', sectionItems_adjustSection] at hkeep
    · have hsecond := rewrittenDocument_of_rewritable hload hrewritable q
      rw [← hsame] at hsecond
      have heq := ((rewrittenDocument_eq_ok (hloaded doc hload hrewritable hdoc')).mp hsecond).2
      rw [hdoc', adjustSection_adjustSection] at heq
      exact heq.symm
  · rintro ⟨hload, hrewritable, hlocal⟩
    obtain ⟨hkeep, hsame⟩ := (isLocal_iff p q hrewritable).mp hlocal
    refine ⟨_, hload, rewrittenDocument_of_rewritable hload hrewritable p, ?_, ?_, ?_⟩
    · rw [sectionItems_adjustSection]
      exact hkeep
    · rw [adjustSection_adjustSection]
      rfl
    · rw [rewrittenDocument_of_rewritable (hloaded _ hload hrewritable rfl) hrewritable.adjustSection,
        rewrittenDocument_of_rewritable hload hrewritable, adjustSection_adjustSection, hsame]

def serverDocument (server : String) : Items :=
  [(.str "clusters", .list [.dict [(.str "name", .scalar (.str "c")), (.str "cluster", .dict
    [(.str "certificate-authority-data", .scalar (.str "QQ==")),
      (.str "server", .scalar (.str server))])]])]

def serverLoad (server : String) (port : Int) (yamlText : String) : Except LoadError Yaml :=
  .ok (.dict (if yamlText = "rewritten" then
    adjustSection "clusters" "cluster" (rewritten (fun _ ↦ "") id (fun _ ↦ false) port) (serverDocument server)
  else serverDocument server))

theorem local_rewritesSoundly : RewritesSoundly (serverLoad "https://127.0.0.1:6443" 7001)
    (fun _ ↦ "rewritten") (fun _ ↦ "") id (fun _ ↦ false) 7001 7002 "local" := by
  refine (rewritesSoundly_iff ?_).mpr ⟨_, rfl, ⟨fun _ ↦ ⟨_, rfl⟩, ?_⟩, ?_⟩
  · rintro _ doc ⟨⟩ hdoc
    rw [(rewriteDocument_eq_ok.mp hdoc).2]
    rfl
  · intro cluster hmem
    cases List.mem_singleton.mp hmem
    exact ⟨some "127.0.0.1".toList, rfl⟩
  · intro cluster hmem host hverifiable
    cases List.mem_singleton.mp hmem
    have hhost : some "127.0.0.1".toList = some host := Except.ok.inj hverifiable.2.2
    exact ⟨(Option.some.inj hhost).symm, by rintro ⟨⟩⟩

def firstName (result : Except RewriteError Items) : Option Yaml :=
  match result with
  | .ok doc => (sectionItems "clusters" "cluster" doc).head?.map fun cluster ↦ get cluster "tls-server-name"
  | .error _ => none

/-- A cluster elsewhere is verified against the local machine after the second rewrite. -/
theorem remote_rewritten : ¬ ∀ (p q : Int) (yamlText : String),
    RewritesSoundly (serverLoad "https://api.example.com:6443" p) (fun _ ↦ "rewritten") (fun _ ↦ "") id
      (fun _ ↦ false) p q yamlText := by
  intro h
  obtain ⟨input, doc, -, -, -, -, hsame⟩ := h 7001 7002 "remote"
  have hnames := congrArg firstName hsame
  have hname : some (Yaml.scalar (.str "127.0.0.1")) = some (.scalar (.str "api.example.com")) := hnames
  exact absurd (Scalar.str.inj (Yaml.scalar.inj (Option.some.inj hname))) (by decide)

end

end BnkForge.Kubeconfig
