import BnkForge.Lib.IPv4
import BnkForge.Lib.Transition

/-!
# The tmfifo address pool of a cluster

`TmfifoPoolAllocator` (`backend/services/tmfifo_ipam_service.py:59–174`) over the DPUs of all
clusters, each call executed as one transaction. A pool is the stored text with what
`ipaddress.ip_network` makes of it.
-/

namespace BnkForge.Ipam

open IPv4 Transition

/-! ### DPUs and pools -/

/-- The columns of `dpus` that the allocator reads and writes. -/
structure Dpu where
  id : Nat
  kubernetesClusterId : Option Nat := none
  hostTmfifoIp : Option String := none
  dpuTmfifoIp : Option String := none
  deriving DecidableEq, Repr

structure Inventory where
  dpus : List Dpu
  nodup : (dpus.map Dpu.id).Nodup

/-- `tmfifo_pool_cidr`: the text and the network it denotes, or the text of the `ValueError`. -/
structure PoolCidr where
  text : String
  network : Except String Network

/-- The pool of a cluster without a `BnkClusterConfig`. -/
def defaultPool : PoolCidr where
  text := "192.168.100.0/22"
  network := .ok ⟨192 * 2 ^ 24 + 168 * 2 ^ 16 + 100 * 2 ^ 8, 22, by decide, by decide, by decide⟩

/-- The pools of the clusters that have a configuration. -/
abbrev Configs := Nat → Option PoolCidr

def poolOf (configs : Configs) (cluster : Nat) : PoolCidr := (configs cluster).getD defaultPool

/-- `TmfifoAllocation`. -/
structure TmfifoAllocation where
  hostIp : String
  dpuIp : String
  subnetCidr : String
  deriving DecidableEq, Repr

/-- What the allocator raises. -/
inductive AllocationError
  /-- `ValidationError` with the field it names. -/
  | validation (field message : String)
  | valueError
  | indexError
  deriving DecidableEq, Repr

/-! ### The calls -/

def given (text : Option String) : Bool := text.any fun t ↦ !t.isEmpty

/-- `ip_network(f"{text}/30", strict=False)`. -/
def linkOf (text : String) : Option Network :=
  match parse text with
  | some address =>
    if h : address < 2 ^ 32 then some (Network.ofAddress address 30 (by decide) h) else none
  | none => none

/-- The subnets in use by the DPUs of a cluster, `none` where a stored address does not parse. -/
def usedSubnets (s : Inventory) (cluster : Nat) : Option (List Network) :=
  (((s.dpus.filter fun d ↦ d.kubernetesClusterId == some cluster).filter fun d ↦
    given d.dpuTmfifoIp).map fun d ↦ d.dpuTmfifoIp.getD "").mapM linkOf

/-- `allocate_next_subnet`. -/
def allocateNextSubnet (configs : Configs) (s : Inventory) (cluster : Nat) :
    Except AllocationError TmfifoAllocation :=
  let pool := poolOf configs cluster
  match pool.network with
  | .error exc =>
    .error (.validation "tmfifo_pool_cidr" ("Invalid tmfifo pool CIDR '" ++ pool.text ++ "': " ++ exc))
  | .ok poolNet =>
    match usedSubnets s cluster with
    | none => .error .valueError
    | some used =>
      match poolNet.subnets 30 with
      | .error exc =>
        .error (.validation "tmfifo_pool_cidr" ("tmfifo pool CIDR '" ++ pool.text ++
          "' cannot be subdivided into /30s: " ++ exc))
      | .ok subs =>
        match subs.find? fun sub ↦ !used.contains sub with
        | none =>
          .error (.validation "tmfifo_pool_cidr" ("tmfifo pool CIDR '" ++ pool.text ++
            "' exhausted for cluster " ++ toString cluster))
        | some sub =>
          match sub.item? 1, sub.item? 2 with
          | some host, some dpu => .ok ⟨format host, format dpu, sub.text⟩
          | _, _ => .error .indexError

/-- Write a row back. -/
def Inventory.put (s : Inventory) (d : Dpu) : Inventory where
  dpus := s.dpus.map fun r ↦ if r.id = d.id then d else r
  nodup := by
    have hids : (s.dpus.map fun r ↦ if r.id = d.id then d else r).map Dpu.id =
        s.dpus.map Dpu.id := by
      rw [List.map_map]
      refine List.map_congr_left fun r _ ↦ ?_
      simp only [Function.comp_apply]
      split
      · next h => exact h.symm
      · rfl
    rw [hids]
    exact s.nodup

/-- `assign_dpu_tmfifo`; a second row with the address violates `ix_dpus_cluster_tmfifo_ip` and
the transaction is rolled back. -/
def assignDpuTmfifo (configs : Configs) (cluster : Nat) (d : Dpu) (s : Inventory) :
    Inventory × Except AllocationError TmfifoAllocation :=
  if d.kubernetesClusterId = some cluster ∧ given d.hostTmfifoIp ∧ given d.dpuTmfifoIp then
    match linkOf (d.dpuTmfifoIp.getD "") with
    | some link => (s, .ok ⟨d.hostTmfifoIp.getD "", d.dpuTmfifoIp.getD "", link.text⟩)
    | none => (s, .error .valueError)
  else
    match allocateNextSubnet configs s cluster with
    | .error e => (s, .error e)
    | .ok alloc =>
      if s.dpus.any fun r ↦ r.id != d.id && r.kubernetesClusterId == some cluster &&
          r.dpuTmfifoIp == some alloc.dpuIp then
        (s, .error (.validation "dpu_tmfifo_ip" ("Concurrent allocation conflict for cluster " ++
          toString cluster ++ ": IP " ++ alloc.dpuIp ++
          " was already allocated (race condition). Retry the request.")))
      else
        (s.put { d with
          kubernetesClusterId := some cluster
          hostTmfifoIp := some alloc.hostIp
          dpuTmfifoIp := some alloc.dpuIp }, .ok alloc)

/-- `release_dpu_tmfifo`. -/
def releaseDpuTmfifo (d : Dpu) (s : Inventory) : Inventory :=
  s.put { d with kubernetesClusterId := none, hostTmfifoIp := none, dpuTmfifoIp := none }

inductive IpamEvent
  | assign (id cluster : Nat)
  | release (id : Nat)
  deriving DecidableEq, Repr

def Inventory.get? (s : Inventory) (id : Nat) : Option Dpu := s.dpus.find? fun d ↦ d.id == id

def ipamStep (configs : Configs) (s : Inventory) : IpamEvent → Option Inventory
  | .assign id cluster => (s.get? id).map fun d ↦ (assignDpuTmfifo configs cluster d s).1
  | .release id => (s.get? id).map fun d ↦ releaseDpuTmfifo d s

/-! ### What the allocator is for -/

def Holds (d : Dpu) (cluster : Nat) (link : Network) : Prop :=
  d.kubernetesClusterId = some cluster ∧ ∃ text ∈ d.dpuTmfifoIp, linkOf text = some link

/-- The link is one of the `/30` subnets of the pool. -/
def InPool (configs : Configs) (cluster : Nat) (link : Network) : Prop :=
  ∃ poolNet, (poolOf configs cluster).network = .ok poolNet ∧ link.prefixLen = 30 ∧
    link.subnetOf poolNet

/-- No text of a network, or one that is too small for a link. -/
def InvalidPool (configs : Configs) (cluster : Nat) : Prop :=
  ∀ poolNet, (poolOf configs cluster).network = .ok poolNet → ¬ poolNet.prefixLen ≤ 30

/-- What is asked of the allocator in a state. -/
structure Allocates (configs : Configs) (s : Inventory) : Prop where
  /-- Who has an address holds a link of the pool of its cluster. -/
  contained : ∀ d ∈ s.dpus, d.dpuTmfifoIp.isSome = true →
    ∃ cluster link, Holds d cluster link ∧ InPool configs cluster link
  /-- The links of a cluster are distinct. -/
  distinct : ∀ d ∈ s.dpus, ∀ d' ∈ s.dpus, d ≠ d' → ∀ cluster link, Holds d cluster link →
    ¬ Holds d' cluster link
  /-- Assigning again returns the link and changes nothing. -/
  again : ∀ d ∈ s.dpus, ∀ cluster link, Holds d cluster link → ∃ host ip,
    d.hostTmfifoIp = some host ∧ d.dpuTmfifoIp = some ip ∧
    assignDpuTmfifo configs cluster d s = (s, .ok ⟨host, ip, link.text⟩)
  /-- Assigning fails only where there is nothing to allocate. -/
  assigned : ∀ d ∈ s.dpus, ∀ cluster e, (assignDpuTmfifo configs cluster d s).2 = .error e →
    allocateNextSubnet configs s cluster = .error e
  /-- Allocation fails only with a validation error, and only where the pool is not valid or
  used up. -/
  fails : ∀ cluster e, allocateNextSubnet configs s cluster = .error e →
    (∃ field message, e = .validation field message) ∧
      (InvalidPool configs cluster ∨
        ∀ link, InPool configs cluster link → ∃ d ∈ s.dpus, Holds d cluster link)
  /-- A released link is free and can be allocated: it is the next one when the others are held. -/
  released : ∀ d ∈ s.dpus, ∀ cluster link, Holds d cluster link →
    (∀ d' ∈ (releaseDpuTmfifo d s).dpus, ¬ Holds d' cluster link) ∧
      ∃ alloc, allocateNextSubnet configs (releaseDpuTmfifo d s) cluster = .ok alloc ∧
        ((∀ link', InPool configs cluster link' → link' ≠ link →
          ∃ d' ∈ (releaseDpuTmfifo d s).dpus, Holds d' cluster link') →
            alloc.subnetCidr = link.text)

/-! ### The rows that the allocator writes -/

section

variable {configs : Configs} {s t : Inventory} {d d' : Dpu} {cluster : Nat} {link : Network}

private theorem size_of_prefixLen (h : link.prefixLen = 30) : link.size = 4 := by
  rw [Network.size, h]
  rfl

private theorem address_lt_of_prefixLen (h : link.prefixLen = 30) (i : Nat) (hi : i < 4) :
    link.address + i < 2 ^ 32 := by
  have := link.address_add_size_le
  rw [size_of_prefixLen h] at this
  omega

private theorem linkOf_format (h : link.prefixLen = 30) :
    linkOf (format (link.address + 2)) = some link := by
  have hlt := address_lt_of_prefixLen h 2 (by decide)
  unfold linkOf
  rw [parse_format hlt]
  simp only [dif_pos hlt, Option.some.injEq]
  have hlink := link.ofAddress_eq 2 (by rw [size_of_prefixLen h]; decide) rfl hlt
  simp only [h] at hlink
  exact hlink

private theorem given_format {address : Nat} (h : address < 2 ^ 32) :
    given (some (format address)) = true := by
  have hne : format address ≠ "" := by
    intro hempty
    have hparse := parse_format h
    rw [hempty] at hparse
    cases hparse
  simpa [given] using hne

/-- A row as the allocator leaves it. -/
structure Linked (configs : Configs) (d : Dpu) (cluster : Nat) (link : Network) : Prop where
  member : d.kubernetesClusterId = some cluster
  host : d.hostTmfifoIp = some (format (link.address + 1))
  dpu : d.dpuTmfifoIp = some (format (link.address + 2))
  inPool : InPool configs cluster link

/-- Every row is as the allocator leaves it, and no two have the same link. -/
structure Ledger (configs : Configs) (s : Inventory) : Prop where
  rows : ∀ d ∈ s.dpus, d.hostTmfifoIp = none ∧ d.dpuTmfifoIp = none ∨
    ∃ cluster link, Linked configs d cluster link
  distinct : ∀ d ∈ s.dpus, ∀ d' ∈ s.dpus, d ≠ d' → ∀ cluster link, Linked configs d cluster link →
    ¬ Linked configs d' cluster link

private theorem InPool.prefixLen (h : InPool configs cluster link) : link.prefixLen = 30 := by
  obtain ⟨_, _, hlen, _⟩ := h
  exact hlen

private theorem Linked.prefixLen (h : Linked configs d cluster link) : link.prefixLen = 30 :=
  h.inPool.prefixLen

private theorem Linked.holds (h : Linked configs d cluster link) : Holds d cluster link :=
  ⟨h.member, _, h.dpu, linkOf_format h.prefixLen⟩

private theorem Holds.unique {cluster' : Nat} {link' : Network} (h : Holds d cluster link)
    (h' : Holds d cluster' link') : cluster = cluster' ∧ link = link' := by
  obtain ⟨hcluster, text, htext, hlink⟩ := h
  obtain ⟨hcluster', text', htext', hlink'⟩ := h'
  cases hcluster.symm.trans hcluster'
  cases htext.symm.trans htext'
  cases hlink.symm.trans hlink'
  exact ⟨rfl, rfl⟩

private theorem Linked.given_host (h : Linked configs d cluster link) :
    given d.hostTmfifoIp = true := by
  rw [h.host]
  exact given_format (address_lt_of_prefixLen h.prefixLen 1 (by decide))

private theorem Linked.given_dpu (h : Linked configs d cluster link) :
    given d.dpuTmfifoIp = true := by
  rw [h.dpu]
  exact given_format (address_lt_of_prefixLen h.prefixLen 2 (by decide))

private theorem Ledger.linked (h : Ledger configs s) (hd : d ∈ s.dpus) (hholds : Holds d cluster link) :
    Linked configs d cluster link := by
  obtain ⟨hcluster, text, htext, hlink⟩ := hholds
  rcases h.rows d hd with ⟨-, hnone⟩ | ⟨cluster', link', hlinked⟩
  · rw [hnone] at htext
    cases htext
  · obtain rfl : cluster' = cluster := Option.some.inj (hlinked.member.symm.trans hcluster)
    rw [Option.mem_def, hlinked.dpu] at htext
    cases htext
    rw [linkOf_format hlinked.prefixLen] at hlink
    cases hlink
    exact hlinked

/-! ### One allocation -/

private theorem mapM_some {α β : Type} {f : α → Option β} {l : List α}
    (h : ∀ x ∈ l, ∃ y, f x = some y) :
    ∃ r, l.mapM f = some r ∧ ∀ y, y ∈ r ↔ ∃ x ∈ l, f x = some y := by
  induction l with
  | nil => exact ⟨[], rfl, by simp⟩
  | cons x l ih =>
    obtain ⟨y, hy⟩ := h x List.mem_cons_self
    obtain ⟨r, hr, hmem⟩ := ih fun z hz ↦ h z (List.mem_cons_of_mem x hz)
    refine ⟨y :: r, by rw [List.mapM_cons, hy, hr]; rfl, fun z ↦ ?_⟩
    simp [hmem, hy, eq_comm]

private theorem usedSubnets_spec (h : Ledger configs s) (cluster : Nat) :
    ∃ used, usedSubnets s cluster = some used ∧
      ∀ link, link ∈ used ↔ ∃ d ∈ s.dpus, Holds d cluster link := by
  have hparse : ∀ text ∈ ((s.dpus.filter fun d ↦ d.kubernetesClusterId == some cluster).filter
      fun d ↦ given d.dpuTmfifoIp).map fun d ↦ d.dpuTmfifoIp.getD "",
      ∃ link, linkOf text = some link := by
    intro text htext
    obtain ⟨d, hd, rfl⟩ := List.mem_map.mp htext
    obtain ⟨hd, hgiven⟩ := List.mem_filter.mp hd
    rcases h.rows d (List.mem_filter.mp hd).1 with ⟨-, hnone⟩ | ⟨cluster', link, hlinked⟩
    · rw [hnone] at hgiven
      cases hgiven
    · rw [hlinked.dpu]
      exact ⟨link, linkOf_format hlinked.prefixLen⟩
  obtain ⟨used, hused, hmem⟩ := mapM_some hparse
  refine ⟨used, hused, fun link ↦ ?_⟩
  rw [hmem]
  constructor
  · rintro ⟨text, htext, hlink⟩
    obtain ⟨d, hd, rfl⟩ := List.mem_map.mp htext
    obtain ⟨hd, hgiven⟩ := List.mem_filter.mp hd
    obtain ⟨hd, hcluster⟩ := List.mem_filter.mp hd
    refine ⟨d, hd, by simpa using hcluster, ?_⟩
    obtain ⟨text, htext⟩ : ∃ text, d.dpuTmfifoIp = some text := by
      cases hip : d.dpuTmfifoIp with
      | none =>
        rw [hip] at hgiven
        cases hgiven
      | some text => exact ⟨text, rfl⟩
    rw [htext] at hlink ⊢
    exact ⟨text, rfl, hlink⟩
  · rintro ⟨d, hd, hholds⟩
    have hlinked := h.linked hd hholds
    refine ⟨format (link.address + 2), List.mem_map.mpr ⟨d, ?_, by rw [hlinked.dpu]; rfl⟩,
      linkOf_format hlinked.prefixLen⟩
    refine List.mem_filter.mpr ⟨List.mem_filter.mpr ⟨hd, ?_⟩, hlinked.given_dpu⟩
    rw [hlinked.member]
    exact beq_self_eq_true _

inductive AllocationSpec (configs : Configs) (s : Inventory) (cluster : Nat) :
    Except AllocationError TmfifoAllocation → Prop
  | invalid (message : String) (h : InvalidPool configs cluster) :
      AllocationSpec configs s cluster (.error (.validation "tmfifo_pool_cidr" message))
  | host (poolNet : Network) (h : (poolOf configs cluster).network = .ok poolNet)
      (hlen : poolNet.prefixLen = 32) : AllocationSpec configs s cluster (.error .indexError)
  | exhausted (message : String)
      (h : ∀ link, InPool configs cluster link → ∃ d ∈ s.dpus, Holds d cluster link) :
      AllocationSpec configs s cluster (.error (.validation "tmfifo_pool_cidr" message))
  | free (link : Network) (hpool : InPool configs cluster link)
      (hfree : ∀ d ∈ s.dpus, ¬ Holds d cluster link) :
      AllocationSpec configs s cluster
        (.ok ⟨format (link.address + 1), format (link.address + 2), link.text⟩)

private theorem allocateNextSubnet_of_host (h : Ledger configs s) {poolNet : Network}
    (hnet : (poolOf configs cluster).network = .ok poolNet) (h32 : poolNet.prefixLen = 32) :
    allocateNextSubnet configs s cluster = .error .indexError := by
  obtain ⟨used, hused, hmem⟩ := usedSubnets_spec h cluster
  have hsubs : poolNet.subnets 30 = .ok [poolNet] := if_pos h32
  have hsize : poolNet.size = 1 := by
    rw [Network.size, h32]
    rfl
  have hunused : used.contains poolNet = false := by
    rw [← Bool.not_eq_true, List.contains_iff_mem]
    intro hpool
    obtain ⟨d, hd, hholds⟩ := (hmem _).mp hpool
    have := (h.linked hd hholds).prefixLen
    omega
  unfold allocateNextSubnet
  dsimp only
  simp only [hnet, hused, hsubs, List.find?_cons, hunused, Bool.not_false, Network.item?, hsize]
  rfl

private theorem allocationSpec (h : Ledger configs s) (cluster : Nat) :
    AllocationSpec configs s cluster (allocateNextSubnet configs s cluster) := by
  obtain ⟨used, hused, hmem⟩ := usedSubnets_spec h cluster
  cases hnet : (poolOf configs cluster).network with
  | error exc =>
    unfold allocateNextSubnet
    dsimp only
    simp only [hnet]
    refine .invalid _ fun poolNet hpool ↦ ?_
    rw [hnet] at hpool
    cases hpool
  | ok poolNet =>
    by_cases h32 : poolNet.prefixLen = 32
    · rw [allocateNextSubnet_of_host h hnet h32]
      exact .host poolNet hnet h32
    · unfold allocateNextSubnet
      dsimp only
      simp only [hnet, hused]
      by_cases h30 : poolNet.prefixLen ≤ 30
      · obtain ⟨subs, hsubs⟩ := Network.subnets_eq_ok h30 (by decide)
        have hinPool : ∀ link, link ∈ subs ↔ InPool configs cluster link := by
          intro link
          rw [Network.mem_subnets h32 hsubs, InPool, hnet]
          exact ⟨fun h ↦ ⟨poolNet, rfl, h⟩, fun ⟨_, heq, h⟩ ↦ by cases heq; exact h⟩
        simp only [hsubs]
        cases hfind : subs.find? fun sub ↦ !used.contains sub with
        | none =>
          refine .exhausted _ fun link hlink ↦ (hmem link).mp ?_
          simpa using List.find?_eq_none.mp hfind link ((hinPool link).mpr hlink)
        | some link =>
          have hlink := (hinPool link).mp (List.mem_of_find?_eq_some hfind)
          have hsize := size_of_prefixLen hlink.prefixLen
          have hunused := List.find?_some hfind
          simp only [Network.item?, hsize]
          refine .free link hlink fun d hd hholds ↦ ?_
          have := (hmem link).mpr ⟨d, hd, hholds⟩
          simp [this] at hunused
      · have hsubs : poolNet.subnets 30 = .error "new prefix must be longer" := by
          unfold Network.subnets
          rw [if_neg h32, dif_neg h30]
        simp only [hsubs]
        refine .invalid _ fun net hpool ↦ ?_
        rw [hnet] at hpool
        cases hpool
        exact h30

/-! ### Every run -/

private theorem mem_put (hd : d ∈ s.dpus) (hid : d'.id = d.id) (r : Dpu) :
    r ∈ (s.put d').dpus ↔ r = d' ∨ r ∈ s.dpus ∧ r.id ≠ d.id := by
  simp only [Inventory.put, List.mem_map, hid]
  constructor
  · rintro ⟨r, hr, rfl⟩
    split
    · exact Or.inl rfl
    · next hne => exact Or.inr ⟨hr, hne⟩
  · rintro (rfl | ⟨hr, hne⟩)
    · exact ⟨d, hd, if_pos rfl⟩
    · exact ⟨r, hr, if_neg hne⟩

private theorem Ledger.put (h : Ledger configs s) (hd : d ∈ s.dpus) (hid : d'.id = d.id)
    (hrow : d'.hostTmfifoIp = none ∧ d'.dpuTmfifoIp = none ∨
      ∃ cluster link, Linked configs d' cluster link ∧ ∀ r ∈ s.dpus, ¬ Holds r cluster link) :
    Ledger configs (s.put d') := by
  have hother : ∀ cluster link, Linked configs d' cluster link → ∀ r ∈ s.dpus,
      ¬ Linked configs r cluster link := by
    intro cluster link hlinked r hr hr'
    rcases hrow with ⟨-, hnone⟩ | ⟨cluster', link', hlinked', hfree⟩
    · cases hnone.symm.trans hlinked.dpu
    · obtain ⟨rfl, rfl⟩ := hlinked.holds.unique hlinked'.holds
      exact hfree r hr hr'.holds
  refine ⟨fun r hr ↦ ?_, fun r hr r' hr' hne cluster link hlinked hlinked' ↦ ?_⟩
  · rcases (mem_put hd hid r).mp hr with rfl | ⟨hr, -⟩
    · exact hrow.imp_right fun ⟨cluster, link, hlinked, _⟩ ↦ ⟨cluster, link, hlinked⟩
    · exact h.rows r hr
  · rcases (mem_put hd hid r).mp hr with rfl | ⟨hold, -⟩
    · rcases (mem_put hd hid r').mp hr' with rfl | ⟨hold', -⟩
      · exact hne rfl
      · exact hother cluster link hlinked r' hold' hlinked'
    · rcases (mem_put hd hid r').mp hr' with rfl | ⟨hold', -⟩
      · exact hother cluster link hlinked' r hold hlinked
      · exact h.distinct r hold r' hold' hne cluster link hlinked hlinked'

private theorem get?_eq_some {id : Nat} (h : s.get? id = some d) : d ∈ s.dpus :=
  List.mem_of_find?_eq_some h

/-- What a call of `assign_dpu_tmfifo` on a row leaves and returns. -/
private theorem assign_spec (h : Ledger configs s) (hd : d ∈ s.dpus) (cluster : Nat) :
    (∃ link, Linked configs d cluster link ∧ assignDpuTmfifo configs cluster d s =
      (s, .ok ⟨format (link.address + 1), format (link.address + 2), link.text⟩)) ∨
    (∃ e, allocateNextSubnet configs s cluster = .error e ∧
      assignDpuTmfifo configs cluster d s = (s, .error e)) ∨
    ∃ link, InPool configs cluster link ∧ (∀ r ∈ s.dpus, ¬ Holds r cluster link) ∧
      (assignDpuTmfifo configs cluster d s).1 = s.put { d with
        kubernetesClusterId := some cluster
        hostTmfifoIp := some (format (link.address + 1))
        dpuTmfifoIp := some (format (link.address + 2)) } ∧
      ∃ alloc, (assignDpuTmfifo configs cluster d s).2 = .ok alloc := by
  unfold assignDpuTmfifo
  split
  · next hassigned =>
    obtain ⟨hmember, hhost, -⟩ := hassigned
    rcases h.rows d hd with ⟨hnone, -⟩ | ⟨cluster', link, hlinked⟩
    · rw [hnone] at hhost
      cases hhost
    · obtain rfl : cluster' = cluster := Option.some.inj (hlinked.member.symm.trans hmember)
      refine Or.inl ⟨link, hlinked, ?_⟩
      rw [hlinked.host, hlinked.dpu]
      simp only [Option.getD_some, linkOf_format hlinked.prefixLen]
  · have hspec := allocationSpec h cluster
    cases halloc : allocateNextSubnet configs s cluster with
    | error e => exact Or.inr (Or.inl ⟨e, rfl, rfl⟩)
    | ok alloc =>
      rw [halloc] at hspec
      cases hspec with
      | free link hpool hfree =>
        have hunique : (s.dpus.any fun r ↦ r.id != d.id && r.kubernetesClusterId == some cluster &&
            r.dpuTmfifoIp == some (format (link.address + 2))) = false := by
          rw [List.any_eq_false]
          intro r hr hclash
          simp only [Bool.and_eq_true, beq_iff_eq] at hclash
          exact hfree r hr ⟨hclash.1.2, _, hclash.2, linkOf_format hpool.prefixLen⟩
        refine Or.inr (Or.inr ⟨link, hpool, hfree, ?_⟩)
        simp [hunique]

private theorem Ledger.step (h : Ledger configs s) {e : IpamEvent}
    (hstep : ipamStep configs s e = some t) : Ledger configs t := by
  cases e with
  | assign id cluster =>
    obtain ⟨d, hget, rfl⟩ := Option.map_eq_some_iff.mp hstep
    have hd := get?_eq_some hget
    rcases assign_spec h hd cluster with ⟨link, -, heq⟩ | ⟨e, -, heq⟩ | ⟨link, hpool, hfree, heq, -⟩
    · rw [heq]
      exact h
    · rw [heq]
      exact h
    · rw [heq]
      exact h.put hd rfl (Or.inr ⟨cluster, link, ⟨rfl, rfl, rfl, hpool⟩, hfree⟩)
  | release id =>
    obtain ⟨d, hget, rfl⟩ := Option.map_eq_some_iff.mp hstep
    exact h.put (get?_eq_some hget) rfl (Or.inl ⟨rfl, rfl⟩)

private theorem InPool.prefixLen_le (h : InPool configs cluster link) (poolNet : Network)
    (hnet : (poolOf configs cluster).network = .ok poolNet) : poolNet.prefixLen ≤ 30 := by
  obtain ⟨poolNet', hnet', hlen, hsub⟩ := h
  cases hnet.symm.trans hnet'
  exact hlen ▸ hsub.prefixLen_le

private theorem InPool.not_invalidPool (h : InPool configs cluster link) :
    ¬ InvalidPool configs cluster := by
  intro hinvalid
  have hle := InPool.prefixLen_le h
  obtain ⟨poolNet, hnet, -, -⟩ := h
  exact hinvalid poolNet hnet (hle poolNet hnet)

private theorem Ledger.not_holds_release (h : Ledger configs s) (hd : d ∈ s.dpus)
    (hholds : Holds d cluster link) {r : Dpu} (hr : r ∈ (releaseDpuTmfifo d s).dpus) :
    ¬ Holds r cluster link := by
  intro hholds'
  unfold releaseDpuTmfifo at hr
  rcases (mem_put hd (by rfl) r).mp hr with rfl | ⟨hr, hne⟩
  · cases hholds'.1
  · refine h.distinct r hr d hd ?_ cluster link (h.linked hr hholds') (h.linked hd hholds)
    rintro rfl
    exact hne rfl

private theorem Ledger.release (h : Ledger configs s) (hd : d ∈ s.dpus) :
    Ledger configs (releaseDpuTmfifo d s) :=
  h.put hd rfl (Or.inl ⟨rfl, rfl⟩)

private theorem Ledger.allocate_release (h : Ledger configs s) (hd : d ∈ s.dpus)
    (hholds : Holds d cluster link) :
    ∃ alloc, allocateNextSubnet configs (releaseDpuTmfifo d s) cluster = .ok alloc ∧
      ((∀ link', InPool configs cluster link' → link' ≠ link →
        ∃ d' ∈ (releaseDpuTmfifo d s).dpus, Holds d' cluster link') →
          alloc.subnetCidr = link.text) := by
  have hpool := (h.linked hd hholds).inPool
  have hspec := allocationSpec (h.release hd) cluster
  cases halloc : allocateNextSubnet configs (releaseDpuTmfifo d s) cluster with
  | error e =>
    rw [halloc] at hspec
    cases hspec with
    | invalid _ hinvalid => exact absurd hinvalid hpool.not_invalidPool
    | host poolNet hnet h32 =>
      have := hpool.prefixLen_le _ hnet
      omega
    | exhausted _ hall =>
      obtain ⟨r, hr, hholds'⟩ := hall link hpool
      exact absurd hholds' (h.not_holds_release hd hholds hr)
  | ok alloc =>
    rw [halloc] at hspec
    cases hspec with
    | free next hnext hfree =>
      refine ⟨_, rfl, fun hheld ↦ ?_⟩
      by_contra hne
      obtain ⟨r, hr, hholds'⟩ := hheld next hnext fun heq ↦ hne (by rw [heq])
      exact hfree r hr hholds'

private theorem Ledger.allocates (h : Ledger configs s)
    (hhost : ∀ cluster poolNet, (poolOf configs cluster).network = .ok poolNet →
      poolNet.prefixLen ≠ 32) : Allocates configs s where
  contained d hd hsome := by
    rcases h.rows d hd with ⟨-, hnone⟩ | ⟨cluster, link, hlinked⟩
    · rw [hnone] at hsome
      cases hsome
    · exact ⟨cluster, link, hlinked.holds, hlinked.inPool⟩
  distinct d hd d' hd' hne cluster link hholds hholds' :=
    h.distinct d hd d' hd' hne cluster link (h.linked hd hholds) (h.linked hd' hholds')
  again d hd cluster link hholds := by
    have hlinked := h.linked hd hholds
    refine ⟨_, _, hlinked.host, hlinked.dpu, ?_⟩
    unfold assignDpuTmfifo
    rw [if_pos ⟨hlinked.member, hlinked.given_host, hlinked.given_dpu⟩, hlinked.host, hlinked.dpu]
    simp only [Option.getD_some, linkOf_format hlinked.prefixLen]
  assigned d hd cluster e herror := by
    rcases assign_spec h hd cluster with ⟨link, -, heq⟩ | ⟨e', halloc, heq⟩ | ⟨_, _, _, _, _, heq⟩
    · rw [heq] at herror
      cases herror
    · rw [heq] at herror
      cases herror
      exact halloc
    · cases heq.symm.trans herror
  fails cluster e herror := by
    have hspec := allocationSpec h cluster
    rw [herror] at hspec
    cases hspec with
    | invalid message hinvalid => exact ⟨⟨_, message, rfl⟩, Or.inl hinvalid⟩
    | host poolNet hnet h32 => exact absurd h32 (hhost cluster poolNet hnet)
    | exhausted message hall => exact ⟨⟨_, message, rfl⟩, Or.inr hall⟩
  released d hd cluster link hholds :=
    ⟨fun _ hr ↦ h.not_holds_release hd hholds hr, h.allocate_release hd hholds⟩

def Unassigned (s : Inventory) : Prop :=
  ∀ d ∈ s.dpus, d.hostTmfifoIp = none ∧ d.dpuTmfifoIp = none

/-- From DPUs without addresses, every sequence of calls is served as asked exactly when no pool is
a single address. -/
theorem tmfifo_allocates_iff (configs : Configs) (start : Inventory) (h : Unassigned start) :
    (∀ es t, Run (ipamStep configs) Free start es t → Allocates configs t) ↔
      ∀ cluster poolNet, (poolOf configs cluster).network = .ok poolNet →
        poolNet.prefixLen ≠ 32 := by
  have hstart : Ledger configs start :=
    ⟨fun d hd ↦ Or.inl (h d hd), fun d hd _ _ _ _ _ hlinked _ ↦ by
      cases (h d hd).2.symm.trans hlinked.dpu⟩
  constructor
  · intro hall cluster poolNet hnet h32
    obtain ⟨⟨_, _, herror⟩, -⟩ := (hall [] start (Run.nil start)).fails cluster _
      (allocateNextSubnet_of_host hstart hnet h32)
    cases herror
  · intro hhost es t hrun
    have ht := hrun.invariant hstart fun a e b ha _ hstep ↦ ha.step hstep
    exact ht.allocates hhost

def twoDpus : Inventory := ⟨[{ id := 1 }, { id := 2 }], by decide⟩

/-- The pool `192.168.100.0/32`. -/
def hostPool : PoolCidr where
  text := "192.168.100.0/32"
  network := .ok ⟨192 * 2 ^ 24 + 168 * 2 ^ 16 + 100 * 2 ^ 8, 32, by decide, by decide, by decide⟩

/-- With the default pool every sequence of calls for the two DPUs is served. -/
theorem tmfifo_allocates_default :
    (allocateNextSubnet (fun _ ↦ none) twoDpus 7 =
      .ok ⟨"192.168.100.1", "192.168.100.2", "192.168.100.0/30"⟩) ∧
    ∀ es t, Run (ipamStep fun _ ↦ none) Free twoDpus es t → Allocates (fun _ ↦ none) t := by
  have hnone : Unassigned twoDpus := by
    intro d hd
    simp only [twoDpus, List.mem_cons, List.not_mem_nil, or_false] at hd
    rcases hd with rfl | rfl
    · exact ⟨rfl, rfl⟩
    · exact ⟨rfl, rfl⟩
  have hdefault : ∀ cluster poolNet, (poolOf (fun _ ↦ none) cluster).network = .ok poolNet →
      poolNet.prefixLen ≠ 32 := by
    intro cluster poolNet hnet
    cases hnet
    decide
  exact ⟨by decide +kernel, (tmfifo_allocates_iff (fun _ ↦ none) twoDpus hnone).mpr hdefault⟩

/-- A pool of one address raises `IndexError`. -/
theorem host_pool_index_error :
    (assignDpuTmfifo (fun _ ↦ some hostPool) 7 { id := 1 } twoDpus).2 = .error .indexError ∧
      ¬ ∀ es t, Run (ipamStep fun _ ↦ some hostPool) Free twoDpus es t →
        Allocates (fun _ ↦ some hostPool) t := by
  have halloc : allocateNextSubnet (fun _ ↦ some hostPool) twoDpus 7 = .error .indexError := rfl
  refine ⟨rfl, fun h ↦ ?_⟩
  obtain ⟨⟨_, _, herror⟩, -⟩ := (h [] twoDpus (Run.nil twoDpus)).fails 7 _ halloc
  cases herror

end

end BnkForge.Ipam
