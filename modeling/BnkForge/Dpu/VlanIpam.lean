import BnkForge.Lib.Dict
import BnkForge.Lib.ExceptResult
import BnkForge.Lib.Subnet
import BnkForge.Lib.Transition

/-!
# The VLAN addresses of the DPUs of a project

`create_dpu`, `auto_assign_vlan_ips` and `delete_dpu` (`backend/services/dpu_service.py:108–224,
281–379`) with `_suggest_ip_in_subnet` (lines 983–999), over the DPUs of one project. A subnet of
the settings is what `ip_network(text, strict=False)` makes of its text, an assigned address stands
for the text `{candidate}/{prefixlen}`.
-/

namespace BnkForge.VlanIpam

open AddressSpace Transition List

/-! ### Settings and DPUs -/

/-- The version of an address. -/
inductive Family
  | ipv4
  | ipv6
  deriving DecidableEq, Repr

/-- `max_prefixlen`. -/
def Family.bits : Family → Nat
  | .ipv4 => 32
  | .ipv6 => 128

inductive Vlan
  | external
  | internal
  | extra (name : String)
  deriving DecidableEq, Repr

/-- The subnets of a VLAN, where the text is there and not empty, and its `start_host`. -/
structure VlanSubnets where
  ipv4Subnet : Option (Subnet 32) := none
  ipv6Subnet : Option (Subnet 128) := none
  startHost : Option Int := none

def VlanSubnets.subnet (row : VlanSubnets) : (family : Family) → Option (Subnet family.bits)
  | .ipv4 => row.ipv4Subnet
  | .ipv6 => row.ipv6Subnet

/-- `start_host or 100`. -/
def VlanSubnets.start (row : VlanSubnets) : Int :=
  match row.startHost with
  | some host => if host = 0 then 100 else host
  | none => 100

/-- `ExtraVlanInterfaceDef`, under its name. -/
structure ExtraVlanInterfaceDef extends VlanSubnets where
  vlanId : Option Int := none

/-- `ProjectDpuSettings`. -/
structure ProjectDpuSettings where
  external : VlanSubnets := {}
  internal : VlanSubnets := {}
  extraVlanInterfaces : Dict String ExtraVlanInterfaceDef := .empty
  /-- No name is empty, so that no row is skipped. -/
  named : "" ∉ extraVlanInterfaces := by decide

def ProjectDpuSettings.row? (settings : ProjectDpuSettings) : Vlan → Option VlanSubnets
  | .external => some settings.external
  | .internal => some settings.internal
  | .extra name => (settings.extraVlanInterfaces.get? name).map (·.toVlanSubnets)

structure Addresses where
  ipv4 : Option Interface := none
  ipv6 : Option Interface := none
  deriving DecidableEq, Repr

/-- The address of a version. -/
def Addresses.get (addresses : Addresses) : Family → Option Interface
  | .ipv4 => addresses.ipv4
  | .ipv6 => addresses.ipv6

/-- `ExtraVlanInterfaceAssignment`, under its name. -/
structure ExtraVlanInterfaceAssignment extends Addresses where
  vlanId : Option Int := none

structure DpuVlans where
  external : Addresses := {}
  internal : Addresses := {}
  extraVlanInterfaces : Dict String ExtraVlanInterfaceAssignment := .empty

def DpuVlans.addresses? (vlans : DpuVlans) : Vlan → Option Addresses
  | .external => some vlans.external
  | .internal => some vlans.internal
  | .extra name => (vlans.extraVlanInterfaces.get? name).map (·.toAddresses)

inductive AccessMode
  | bmc
  | inBand
  deriving DecidableEq, Repr

/-- The fields of `DpuCreate` that the unique indexes of `dpus` are about; no address is given. -/
structure DpuCreate where
  accessMode : AccessMode := .bmc
  bmcIp : Option String := none
  hostNodeIp : Option String := none
  pciAddress : Option String := none
  deriving DecidableEq, Repr

structure Dpu extends DpuCreate where
  id : Nat
  vlans : DpuVlans

structure DpuTable where
  dpus : List Dpu
  nextId : Nat
  sorted : (dpus.map Dpu.id).Pairwise (· < ·)
  bounded : ∀ d ∈ dpus, d.id < nextId

/-- What the calls raise. -/
inductive DpuError
  /-- `AddressValueError`, which nothing catches. -/
  | addressValueError
  | validation (field message : String)
  | notFound (entity : String) (id : Nat)
  deriving DecidableEq, Repr

/-! ### The calls -/

/-- `_suggest_ip_in_subnet`. -/
def suggestIpInSubnet {bits : Nat} (net : Subnet bits) (ordinal : Int) :
    Except DpuError (Option Interface) :=
  match net.shift ordinal with
  | none => .error .addressValueError
  | some candidate => .ok (if net.contains candidate then some ⟨candidate, net.prefixLen⟩ else none)

def suggest {bits : Nat} (subnet : Option (Subnet bits)) (ordinal : Int) :
    Except DpuError (Option Interface) :=
  match subnet with
  | none => .ok none
  | some net => suggestIpInSubnet net ordinal

def suggestAddresses (row : VlanSubnets) (ordinal : Int) : Except DpuError Addresses := do
  let ipv4 ← suggest row.ipv4Subnet ordinal
  let ipv6 ← suggest row.ipv6Subnet ordinal
  pure ⟨ipv4, ipv6⟩

/-- The addresses of a new DPU: the fixed rows are numbered from 1, the extra ones from their
`start_host`. -/
def vlansOfOrdinal (settings : ProjectDpuSettings) (ordinal : Int) : Except DpuError DpuVlans := do
  let external ← suggestAddresses settings.external ordinal
  let internal ← suggestAddresses settings.internal ordinal
  let extras ← settings.extraVlanInterfaces.mapM fun _ extra ↦ do
    let addresses ← suggestAddresses extra.toVlanSubnets (extra.start + (ordinal - 1))
    pure { toAddresses := addresses, vlanId := extra.vlanId }
  pure ⟨external, internal, extras⟩

/-- The two rows violate a unique index of `dpus`. -/
def conflicts (d r : DpuCreate) : Bool :=
  (d.bmcIp.isSome && d.bmcIp == r.bmcIp) ||
    (d.accessMode == .inBand && r.accessMode == .inBand && d.hostNodeIp.isSome &&
      d.hostNodeIp == r.hostNodeIp && d.pciAddress.isSome && d.pciAddress == r.pciAddress)

def DpuTable.add (t : DpuTable) (data : DpuCreate) (vlans : DpuVlans) : DpuTable where
  dpus := t.dpus ++ [{ toDpuCreate := data, id := t.nextId, vlans }]
  nextId := t.nextId + 1
  sorted := by
    rw [List.map_append, List.pairwise_append]
    refine ⟨t.sorted, List.pairwise_singleton .., fun id hid id' hid' ↦ ?_⟩
    obtain ⟨d, hd, rfl⟩ := List.mem_map.mp hid
    obtain rfl := List.mem_singleton.mp hid'
    exact t.bounded d hd
  bounded := by
    intro d hd
    rcases List.mem_append.mp hd with hd | hd
    · exact (t.bounded d hd).trans (Nat.lt_succ_self _)
    · obtain rfl := List.mem_singleton.mp hd
      exact Nat.lt_succ_self _

/-- `create_dpu`; a row that violates an index is rolled back. -/
def createDpu (settings : Option ProjectDpuSettings) (t : DpuTable) (data : DpuCreate) :
    Except DpuError DpuTable := do
  let ordinal : Int := t.dpus.length + 1
  let vlans ← match settings with
    | none => pure {}
    | some settings => vlansOfOrdinal settings ordinal
  if t.dpus.any fun d ↦ conflicts data d.toDpuCreate then
    throw (.validation "bmc_ip" ("DPU with BMC IP '" ++ data.bmcIp.getD "None" ++
      "' already exists in this project"))
  else pure (t.add data vlans)

/-- The address of a DPU after `auto_assign_vlan_ips` and how many are assigned: without a
suggestion it stays, without a subnet it is `unset`. -/
def snapAddress {bits : Nat} (subnet : Option (Subnet bits)) (offset : Int)
    (old unset : Option Interface) : Except DpuError (Option Interface × Nat) :=
  match subnet with
  | none => .ok (unset, 0)
  | some net => (suggestIpInSubnet net offset).map fun
    | some address => (some address, 1)
    | none => (old, 0)

/-- The addresses on a VLAN after `auto_assign_vlan_ips`. -/
def snapAddresses (row : VlanSubnets) (offset : Int) (old unset : Addresses) :
    Except DpuError (Addresses × Nat) := do
  let ipv4 ← snapAddress row.ipv4Subnet offset old.ipv4 unset.ipv4
  let ipv6 ← snapAddress row.ipv6Subnet offset old.ipv6 unset.ipv6
  pure (⟨ipv4.1, ipv6.1⟩, ipv4.2 + ipv6.2)

/-- The row of an extra VLAN after `auto_assign_vlan_ips`. -/
def snapExtra (idx : Nat) (vlans : DpuVlans) (name : String) (extra : ExtraVlanInterfaceDef) :
    Except DpuError (ExtraVlanInterfaceAssignment × Nat) := do
  let entry := ((vlans.extraVlanInterfaces.get? name).map (·.toAddresses)).getD {}
  let addresses ← snapAddresses extra.toVlanSubnets (extra.start + idx) entry {}
  pure ({ toAddresses := addresses.1, vlanId := extra.vlanId }, addresses.2)

/-- The VLAN columns of the DPU at an index after `auto_assign_vlan_ips`. -/
def snapVlans (settings : ProjectDpuSettings) (vlans : DpuVlans) (idx : Nat) :
    Except DpuError (DpuVlans × Nat) := do
  let external ← snapAddresses settings.external (settings.external.start + idx) vlans.external
    vlans.external
  let internal ← snapAddresses settings.internal (settings.internal.start + idx) vlans.internal
    vlans.internal
  let extras ← settings.extraVlanInterfaces.mapM (snapExtra idx vlans)
  pure (⟨external.1, internal.1, extras.map Prod.fst⟩,
    external.2 + internal.2 + (extras.items.map fun e ↦ e.2.2).sum)

/-- The VLAN columns are written back, row by row. -/
def withVlans (dpus : List Dpu) (vlans : List DpuVlans) : List Dpu :=
  List.zipWith (fun d vlans ↦ { d with vlans }) dpus vlans

private theorem map_id_withVlans (dpus : List Dpu) (vlans : List DpuVlans) :
    ((withVlans dpus vlans).map Dpu.id).Sublist (dpus.map Dpu.id) := by
  induction dpus generalizing vlans with
  | nil => exact List.Sublist.refl _
  | cons d dpus ih =>
    cases vlans with
    | nil => exact nil_sublist _
    | cons row vlans => exact (ih vlans).cons_cons d.id

/-- The table with the columns that are written back. -/
def DpuTable.withVlans (t : DpuTable) (vlans : List DpuVlans) : DpuTable where
  dpus := VlanIpam.withVlans t.dpus vlans
  nextId := t.nextId
  sorted := t.sorted.sublist (map_id_withVlans t.dpus vlans)
  bounded := by
    intro d hd
    obtain ⟨r, hr, hid⟩ := List.mem_map.mp
      ((map_id_withVlans t.dpus vlans).subset (List.mem_map_of_mem hd))
    exact hid ▸ t.bounded r hr

/-- `auto_assign_vlan_ips`, with the number of assignments. -/
def autoAssignVlanIps (settings : Option ProjectDpuSettings) (t : DpuTable) :
    Except DpuError (DpuTable × Nat) :=
  match settings with
  | none => .ok (t, 0)
  | some settings => do
    let rows ← (t.dpus.map Dpu.vlans).zipIdx.mapM fun row ↦ snapVlans settings row.1 row.2
    pure (t.withVlans (rows.map Prod.fst), (rows.map Prod.snd).sum)

def DpuTable.remove (t : DpuTable) (id : Nat) : DpuTable where
  dpus := t.dpus.filter fun d ↦ d.id ≠ id
  nextId := t.nextId
  sorted := t.sorted.sublist (List.filter_sublist.map Dpu.id)
  bounded d hd := t.bounded d (List.mem_of_mem_filter hd)

/-- `delete_dpu`. -/
def deleteDpu (t : DpuTable) (id : Nat) : Except DpuError DpuTable :=
  if t.dpus.any fun d ↦ d.id == id then .ok (t.remove id) else .error (.notFound "Dpu" id)

inductive VlanEvent
  | create (data : DpuCreate)
  | delete (id : Nat)
  | autoAssign
  deriving DecidableEq, Repr

def call (settings : Option ProjectDpuSettings) (t : DpuTable) : VlanEvent → Except DpuError DpuTable
  | .create data => createDpu settings t data
  | .delete id => deleteDpu t id
  | .autoAssign => (autoAssignVlanIps settings t).map Prod.fst

def vlanStep (settings : Option ProjectDpuSettings) (t : DpuTable) (e : VlanEvent) : Option DpuTable :=
  some ((call settings t e).toOption.getD t)

def DpuTable.empty : DpuTable := ⟨[], 1, List.Pairwise.nil, nofun⟩

/-! ### What is asked of the addresses -/

structure Slot (settings : Option ProjectDpuSettings) where
  vlan : Vlan
  family : Family
  row : VlanSubnets
  net : Subnet family.bits
  row_eq : (settings.bind fun s ↦ s.row? vlan) = some row
  net_eq : row.subnet family = some net

def DpuVlans.held (vlans : DpuVlans) (vlan : Vlan) (family : Family) : Option Interface :=
  (vlans.addresses? vlan).bind (·.get family)

theorem DpuVlans.held_extra (vlans : DpuVlans) (name : String) (family : Family) :
    vlans.held (.extra name) family =
      (vlans.extraVlanInterfaces.get? name).bind (·.toAddresses.get family) :=
  Option.bind_map ..

namespace Slot

variable {settings : Option ProjectDpuSettings} (slot : Slot settings)

def held (d : Dpu) : Option Interface := d.vlans.held slot.vlan slot.family

/-- The number of a DPU in the subnet when it is created next to `count` others. -/
def createOffset (count : Nat) : Int :=
  match slot.vlan with
  | .extra _ => slot.row.start + count
  | _ => count + 1

/-- The number of the DPU at an index when the addresses are assigned anew. -/
def autoOffset (idx : Nat) : Int := slot.row.start + idx

def HoldsAt (d : Dpu) (offset : Int) : Prop :=
  ∃ a ∈ slot.held d, (a.address : Int) = slot.net.address + offset

/-- The number may be given: in a subnet of version 4 only that of a host. -/
def Assignable (offset : Int) : Prop := slot.family = .ipv4 → slot.net.HostOffset offset

end Slot

/-- What is asked of the addresses of the project. -/
structure Planned (settings : Option ProjectDpuSettings) (t : DpuTable) : Prop where
  /-- In each subnet the addresses are distinct. -/
  distinct : ∀ slot : Slot settings, t.dpus.Pairwise fun d d' ↦
    ∀ a ∈ slot.held d, ∀ a' ∈ slot.held d', a.address ≠ a'.address
  /-- Those of version 4 are neither the network nor the broadcast address. -/
  usable : ∀ slot : Slot settings, slot.family = .ipv4 → ∀ d ∈ t.dpus, ∀ a ∈ slot.held d,
    slot.net.Usable a.address

/-- The calls that keep this. -/
def Safe (settings : Option ProjectDpuSettings) (t : DpuTable) : VlanEvent → Prop
  -- Where the row is created, its numbers that lie in the subnets may be given, and no other DPU
  -- holds their addresses.
  | .create data =>
    (t.dpus.any fun d ↦ conflicts data d.toDpuCreate) = false →
      (∀ slot : Slot settings, slot.net.Reaches (slot.createOffset t.dpus.length)) →
        ∀ slot : Slot settings, slot.net.Spans (slot.createOffset t.dpus.length) →
          slot.Assignable (slot.createOffset t.dpus.length) ∧
            ∀ d ∈ t.dpus, ¬ slot.HoldsAt d (slot.createOffset t.dpus.length)
  | .delete _ => True
  -- Where no number leaves the address space, those that lie in the subnets may be given, and no
  -- DPU whose own number lies outside holds their addresses.
  | .autoAssign =>
    (∀ slot : Slot settings, ∀ i < t.dpus.length, slot.net.Reaches (slot.autoOffset i)) →
      ∀ slot : Slot settings, ∀ i < t.dpus.length, slot.net.Spans (slot.autoOffset i) →
        slot.Assignable (slot.autoOffset i) ∧
          ∀ j (hj : j < t.dpus.length), ¬ slot.net.Spans (slot.autoOffset j) →
            ¬ slot.HoldsAt t.dpus[j] (slot.autoOffset i)

/-! ### What the calls suggest -/

section

variable {bits : Nat} {net : Subnet bits} {offset : Int}

theorem suggestIpInSubnet_eq (net : Subnet bits) (offset : Int) : suggestIpInSubnet net offset =
    if net.Reaches offset then .ok (net.at? offset) else .error .addressValueError := by
  unfold suggestIpInSubnet
  by_cases h : net.Reaches offset
  · rw [Subnet.shift, if_pos h, if_pos h]
    simp only [Subnet.contains_shift_iff h]
    rfl
  · rw [Subnet.shift, if_neg h, if_neg h]

theorem suggestIpInSubnet_eq_ok {r : Option Interface} :
    suggestIpInSubnet net offset = .ok r ↔ net.Reaches offset ∧ net.at? offset = r := by
  rw [suggestIpInSubnet_eq]
  split
  case isTrue h => exact ⟨fun hr ↦ ⟨h, Except.ok.inj hr⟩, fun hr ↦ congrArg Except.ok hr.2⟩
  case isFalse h => exact iff_of_false nofun fun hr ↦ h hr.1

theorem exists_suggest {subnet : Option (Subnet bits)} (h : ∀ net ∈ subnet, net.Reaches offset) :
    ∃ r, suggest subnet offset = .ok r := by
  cases subnet with
  | none => exact ⟨none, rfl⟩
  | some net => exact ⟨_, suggestIpInSubnet_eq_ok.mpr ⟨h net rfl, rfl⟩⟩

variable {row : VlanSubnets} {family : Family}

theorem suggestAddresses_eq_ok {addresses : Addresses} :
    suggestAddresses row offset = .ok addresses ↔
      ∀ family, suggest (row.subnet family) offset = .ok (addresses.get family) := by
  obtain ⟨v4, v6⟩ := addresses
  simp only [suggestAddresses, ExceptResult.bind_eq_ok, ExceptResult.pure_eq_ok]
  constructor
  · rintro ⟨_, h4, _, h6, ⟨⟩⟩ family
    cases family with
    | ipv4 => exact h4
    | ipv6 => exact h6
  · intro h
    exact ⟨v4, h .ipv4, v6, h .ipv6, rfl⟩

theorem exists_suggestAddresses (row : VlanSubnets) (offset : Int)
    (h : ∀ family net, row.subnet family = some net → net.Reaches offset) :
    ∃ addresses, suggestAddresses row offset = .ok addresses := by
  obtain ⟨v4, h4⟩ := exists_suggest (h .ipv4)
  obtain ⟨v6, h6⟩ := exists_suggest (h .ipv6)
  refine ⟨⟨v4, v6⟩, suggestAddresses_eq_ok.mpr fun family ↦ ?_⟩
  cases family with
  | ipv4 => exact h4
  | ipv6 => exact h6

theorem get_of_suggestAddresses {net : Subnet family.bits} {addresses : Addresses}
    (h : suggestAddresses row offset = .ok addresses) (hnet : row.subnet family = some net) :
    net.Reaches offset ∧ net.at? offset = addresses.get family := by
  have hfamily := suggestAddresses_eq_ok.mp h family
  rw [hnet] at hfamily
  exact suggestIpInSubnet_eq_ok.mp hfamily

variable {old unset : Option Interface} {count idx : Nat}

theorem snapAddress_some {r : Option Interface × Nat}
    (h : snapAddress (some net) offset old unset = .ok r) :
    net.Reaches offset ∧ r.1 = (net.at? offset).or old := by
  unfold snapAddress at h
  dsimp only at h
  rw [suggestIpInSubnet_eq] at h
  split at h
  case isTrue hreaches =>
    refine ⟨hreaches, ?_⟩
    cases hat : net.at? offset with
    | none =>
      rw [hat] at h
      cases h
      rfl
    | some a =>
      rw [hat] at h
      cases h
      rfl
  case isFalse => cases h

theorem exists_snapAddress {subnet : Option (Subnet bits)} (h : ∀ net ∈ subnet, net.Reaches offset) :
    ∃ r, snapAddress subnet offset old unset = .ok r := by
  cases subnet with
  | none => exact ⟨(unset, 0), rfl⟩
  | some net =>
    unfold snapAddress
    dsimp only
    rw [suggestIpInSubnet_eq, if_pos (h net rfl)]
    exact ⟨_, rfl⟩

variable {had without : Addresses}

theorem get_of_snapAddresses {net : Subnet family.bits} {r : Addresses × Nat}
    (h : snapAddresses row offset had without = .ok r) (hnet : row.subnet family = some net) :
    net.Reaches offset ∧ r.1.get family = (net.at? offset).or (had.get family) := by
  simp only [snapAddresses, ExceptResult.bind_eq_ok, ExceptResult.pure_eq_ok] at h
  obtain ⟨v4, h4, v6, h6, rfl⟩ := h
  cases family with
  | ipv4 =>
    have hrow : row.ipv4Subnet = some net := hnet
    rw [hrow] at h4
    exact snapAddress_some h4
  | ipv6 =>
    have hrow : row.ipv6Subnet = some net := hnet
    rw [hrow] at h6
    exact snapAddress_some h6

theorem exists_snapAddresses (row : VlanSubnets) (offset : Int) (had without : Addresses)
    (h : ∀ family net, row.subnet family = some net → net.Reaches offset) :
    ∃ r, snapAddresses row offset had without = .ok r := by
  obtain ⟨v4, h4⟩ := exists_snapAddress (h .ipv4)
  obtain ⟨v6, h6⟩ := exists_snapAddress (h .ipv6)
  simp only [snapAddresses, ExceptResult.bind_eq_ok, ExceptResult.pure_eq_ok]
  exact ⟨_, v4, h4, v6, h6, rfl⟩

end

/-! ### What the calls do -/

section

variable {settings : ProjectDpuSettings} {count idx : Nat} {vlans : DpuVlans}

theorem held_of_vlansOfOrdinal (h : vlansOfOrdinal settings (count + 1) = .ok vlans)
    (slot : Slot (some settings)) :
    slot.net.Reaches (slot.createOffset count) ∧
      slot.net.at? (slot.createOffset count) = vlans.held slot.vlan slot.family := by
  simp only [vlansOfOrdinal, ExceptResult.bind_eq_ok, ExceptResult.pure_eq_ok] at h
  obtain ⟨external, hexternal, internal, hinternal, extras, hextras, rfl⟩ := h
  obtain ⟨vlan, family, row, net, hrow, hnet⟩ := slot
  cases vlan with
  | external =>
    cases hrow
    exact get_of_suggestAddresses hexternal hnet
  | internal =>
    cases hrow
    exact get_of_suggestAddresses hinternal hnet
  | extra name =>
    obtain ⟨extra, hextra, rfl⟩ := Option.map_eq_some_iff.mp hrow
    have hrel := Dict.get?_mapM hextras name
    rw [hextra] at hrel
    cases hentry : extras.get? name with
    | none =>
      rw [hentry] at hrel
      cases hrel
    | some entry =>
      rw [hentry] at hrel
      cases hrel with
      | some hrel =>
        obtain ⟨addresses, haddresses, hentry'⟩ := ExceptResult.bind_eq_ok.mp hrel
        obtain rfl := ExceptResult.pure_eq_ok.mp hentry'
        have hoffset : extra.start + (((count : Int) + 1) - 1) = extra.start + count := by omega
        rw [hoffset] at haddresses
        rw [DpuVlans.held_extra, hentry]
        exact get_of_suggestAddresses haddresses hnet

theorem exists_vlansOfOrdinal
    (h : ∀ slot : Slot (some settings), slot.net.Reaches (slot.createOffset count)) :
    ∃ vlans, vlansOfOrdinal settings (count + 1) = .ok vlans := by
  obtain ⟨external, hexternal⟩ := exists_suggestAddresses settings.external
    (count + 1) fun family net hnet ↦ h ⟨.external, family, _, net, rfl, hnet⟩
  obtain ⟨internal, hinternal⟩ := exists_suggestAddresses settings.internal
    (count + 1) fun family net hnet ↦ h ⟨.internal, family, _, net, rfl, hnet⟩
  obtain ⟨extras, hextras⟩ := settings.extraVlanInterfaces.exists_mapM (f := fun _ extra ↦ do
      let addresses ← suggestAddresses extra.toVlanSubnets (extra.start + ((count : Int) + 1 - 1))
      pure ({ toAddresses := addresses, vlanId := extra.vlanId } : ExtraVlanInterfaceAssignment))
      fun name extra hextra ↦ by
    have hrow : ((some settings).bind fun s ↦ s.row? (.extra name)) = some extra.toVlanSubnets :=
      congrArg (Option.map ExtraVlanInterfaceDef.toVlanSubnets) hextra
    obtain ⟨addresses, haddresses⟩ := exists_suggestAddresses extra.toVlanSubnets
      (extra.start + ((count : Int) + 1 - 1)) fun family net hnet ↦ by
        have hreach := h ⟨.extra name, family, _, net, hrow, hnet⟩
        have hoffset : extra.start + (((count : Int) + 1) - 1) = extra.start + count := by omega
        rw [hoffset]
        exact hreach
    exact ⟨_, ExceptResult.bind_eq_ok.mpr ⟨addresses, haddresses, rfl⟩⟩
  simp only [vlansOfOrdinal, ExceptResult.bind_eq_ok, ExceptResult.pure_eq_ok]
  exact ⟨_, external, hexternal, internal, hinternal, extras, hextras, rfl⟩

theorem held_of_snapVlans {r : DpuVlans × Nat} (h : snapVlans settings vlans idx = .ok r)
    (slot : Slot (some settings)) :
    slot.net.Reaches (slot.autoOffset idx) ∧ r.1.held slot.vlan slot.family =
      (slot.net.at? (slot.autoOffset idx)).or (vlans.held slot.vlan slot.family) := by
  simp only [snapVlans, ExceptResult.bind_eq_ok, ExceptResult.pure_eq_ok] at h
  obtain ⟨external, hexternal, internal, hinternal, extras, hextras, rfl⟩ := h
  obtain ⟨vlan, family, row, net, hrow, hnet⟩ := slot
  cases vlan with
  | external =>
    cases hrow
    exact get_of_snapAddresses hexternal hnet
  | internal =>
    cases hrow
    exact get_of_snapAddresses hinternal hnet
  | extra name =>
    obtain ⟨extra, hextra, rfl⟩ := Option.map_eq_some_iff.mp hrow
    have hrel := Dict.get?_mapM hextras name
    rw [hextra] at hrel
    cases hentry : extras.get? name with
    | none =>
      rw [hentry] at hrel
      cases hrel
    | some entry =>
      rw [hentry] at hrel
      cases hrel with
      | some hrel =>
        simp only [snapExtra, ExceptResult.bind_eq_ok, ExceptResult.pure_eq_ok] at hrel
        obtain ⟨addresses, haddresses, rfl⟩ := hrel
        obtain ⟨hreaches, hget⟩ := get_of_snapAddresses haddresses hnet
        refine ⟨hreaches, ?_⟩
        have hold : (((vlans.extraVlanInterfaces.get? name).map
            ExtraVlanInterfaceAssignment.toAddresses).getD {}).get family =
              vlans.held (.extra name) family := by
          rw [DpuVlans.held_extra]
          cases vlans.extraVlanInterfaces.get? name with
          | none => cases family <;> rfl
          | some entry => rfl
        rw [hold] at hget
        rw [DpuVlans.held_extra, Dict.get?_map, hentry]
        exact hget

theorem exists_snapVlans
    (h : ∀ slot : Slot (some settings), slot.net.Reaches (slot.autoOffset idx)) :
    ∃ r, snapVlans settings vlans idx = .ok r := by
  obtain ⟨external, hexternal⟩ := exists_snapAddresses settings.external
    (settings.external.start + idx) vlans.external vlans.external
    fun family net hnet ↦ h ⟨.external, family, _, net, rfl, hnet⟩
  obtain ⟨internal, hinternal⟩ := exists_snapAddresses settings.internal
    (settings.internal.start + idx) vlans.internal vlans.internal
    fun family net hnet ↦ h ⟨.internal, family, _, net, rfl, hnet⟩
  obtain ⟨extras, hextras⟩ := settings.extraVlanInterfaces.exists_mapM (f := snapExtra idx vlans)
      fun name extra hextra ↦ by
    have hrow : ((some settings).bind fun s ↦ s.row? (.extra name)) = some extra.toVlanSubnets :=
      congrArg (Option.map ExtraVlanInterfaceDef.toVlanSubnets) hextra
    obtain ⟨addresses, haddresses⟩ := exists_snapAddresses extra.toVlanSubnets
      (extra.start + idx) (((vlans.extraVlanInterfaces.get? name).map (·.toAddresses)).getD {}) {}
      fun family net hnet ↦ h ⟨.extra name, family, _, net, hrow, hnet⟩
    exact ⟨_, ExceptResult.bind_eq_ok.mpr ⟨addresses, haddresses, rfl⟩⟩
  simp only [snapVlans, ExceptResult.bind_eq_ok, ExceptResult.pure_eq_ok]
  exact ⟨_, external, hexternal, internal, hinternal, extras, hextras, rfl⟩

end

section

variable {settings : Option ProjectDpuSettings} {t t' : DpuTable} {data : DpuCreate} {e : VlanEvent}

/-- What `create_dpu` does. -/
inductive Created (settings : Option ProjectDpuSettings) (t : DpuTable) (data : DpuCreate) :
    Except DpuError DpuTable → Prop
  | raised (exc : DpuError) (slot : Slot settings)
      (h : ¬ slot.net.Reaches (slot.createOffset t.dpus.length)) : Created settings t data (.error exc)
  | refused (exc : DpuError) (h : (t.dpus.any fun d ↦ conflicts data d.toDpuCreate) = true) :
      Created settings t data (.error exc)
  | added (vlans : DpuVlans) (hfree : (t.dpus.any fun d ↦ conflicts data d.toDpuCreate) = false)
      (h : ∀ slot : Slot settings, slot.net.Reaches (slot.createOffset t.dpus.length) ∧
        slot.net.at? (slot.createOffset t.dpus.length) = vlans.held slot.vlan slot.family) :
      Created settings t data (.ok (t.add data vlans))

theorem not_slot_none (slot : Slot none) : False := nomatch slot.row_eq

theorem createDpu_created (settings : Option ProjectDpuSettings) (t : DpuTable) (data : DpuCreate) :
    Created settings t data (createDpu settings t data) := by
  have hrest (vlans : DpuVlans) (h : ∀ slot : Slot settings,
      slot.net.Reaches (slot.createOffset t.dpus.length) ∧
        slot.net.at? (slot.createOffset t.dpus.length) = vlans.held slot.vlan slot.family) :
      Created settings t data (if t.dpus.any fun d ↦ conflicts data d.toDpuCreate then
        .error (.validation "bmc_ip" ("DPU with BMC IP '" ++ data.bmcIp.getD "None" ++
          "' already exists in this project"))
        else .ok (t.add data vlans)) := by
    split
    case isTrue hconflict => exact .refused _ hconflict
    case isFalse hfree => exact .added vlans (Bool.eq_false_iff.mpr hfree) h
  cases settings with
  | none => exact hrest {} fun slot ↦ (not_slot_none slot).elim
  | some settings =>
    by_cases hreaches : ∀ slot : Slot (some settings),
        slot.net.Reaches (slot.createOffset t.dpus.length)
    · obtain ⟨vlans, hvlans⟩ := exists_vlansOfOrdinal hreaches
      have heq : createDpu (some settings) t data = if t.dpus.any fun d ↦ conflicts data d.toDpuCreate
          then .error (.validation "bmc_ip" ("DPU with BMC IP '" ++ data.bmcIp.getD "None" ++
            "' already exists in this project"))
          else .ok (t.add data vlans) := by
        unfold createDpu
        dsimp only
        rw [hvlans]
        rfl
      rw [heq]
      exact hrest vlans fun slot ↦ held_of_vlansOfOrdinal hvlans slot
    · obtain ⟨slot, hslot⟩ := not_forall.mp hreaches
      cases hvlans : vlansOfOrdinal settings (t.dpus.length + 1) with
      | ok vlans => exact absurd (held_of_vlansOfOrdinal hvlans slot).1 hslot
      | error exc =>
        have heq : createDpu (some settings) t data = .error exc := by
          unfold createDpu
          dsimp only
          rw [hvlans]
          rfl
        rw [heq]
        exact .raised exc slot hslot

/-- What `auto_assign_vlan_ips` does. -/
inductive Snapped (settings : Option ProjectDpuSettings) (t : DpuTable) :
    Except DpuError (DpuTable × Nat) → Prop
  | raised (exc : DpuError) (slot : Slot settings) (i : Nat) (hi : i < t.dpus.length)
      (h : ¬ slot.net.Reaches (slot.autoOffset i)) : Snapped settings t (.error exc)
  | assigned (t' : DpuTable) (n : Nat) (hlength : t'.dpus.length = t.dpus.length)
      (h : ∀ slot : Slot settings, ∀ i (hi : i < t.dpus.length) (hi' : i < t'.dpus.length),
        slot.net.Reaches (slot.autoOffset i) ∧
          slot.held t'.dpus[i] = (slot.net.at? (slot.autoOffset i)).or (slot.held t.dpus[i])) :
      Snapped settings t (.ok (t', n))

theorem autoAssignVlanIps_snapped (settings : Option ProjectDpuSettings) (t : DpuTable) :
    Snapped settings t (autoAssignVlanIps settings t) := by
  cases settings with
  | none => exact .assigned t 0 rfl fun slot ↦ (not_slot_none slot).elim
  | some settings =>
    have hraised {exc : DpuError}
        (h : ((t.dpus.map Dpu.vlans).zipIdx.mapM fun row ↦ snapVlans settings row.1 row.2) =
          .error exc) : ∃ slot : Slot (some settings), ∃ i < t.dpus.length,
            ¬ slot.net.Reaches (slot.autoOffset i) := by
      by_contra hnone
      push Not at hnone
      have hrow : ∀ row ∈ (t.dpus.map Dpu.vlans).zipIdx,
          ∃ r, snapVlans settings row.1 row.2 = .ok r := fun row hrow ↦ by
        have hi := snd_lt_of_mem_zipIdx hrow
        rw [length_map, Nat.add_zero] at hi
        exact exists_snapVlans fun slot ↦ hnone slot row.2 hi
      obtain ⟨rows, hrows⟩ := ExceptResult.exists_mapM hrow
      cases h.symm.trans hrows
    unfold autoAssignVlanIps
    dsimp only
    cases hrows : (t.dpus.map Dpu.vlans).zipIdx.mapM fun row ↦ snapVlans settings row.1 row.2 with
    | error exc =>
      obtain ⟨slot, i, hi, hslot⟩ := hraised hrows
      exact .raised exc slot i hi hslot
    | ok rows =>
      obtain ⟨hlength, hall⟩ := forall₂_iff_get.mp (ExceptResult.mapM_eq_ok.mp hrows)
      rw [length_zipIdx, length_map] at hlength
      refine .assigned _ _ ?_ fun slot i hi hi' ↦ ?_
      · simp [DpuTable.withVlans, VlanIpam.withVlans, hlength]
      · have hrow := hall i (by simpa using hi) (hlength ▸ hi)
        simp only [get_eq_getElem, getElem_zipIdx, getElem_map, Nat.zero_add] at hrow
        have hget : (t.withVlans (rows.map Prod.fst)).dpus[i].vlans = rows[i].1 := by
          simp [DpuTable.withVlans, VlanIpam.withVlans]
        unfold Slot.held
        rw [hget]
        exact held_of_snapVlans hrow slot

variable {slot : Slot settings} {offset : Int} {d : Dpu}

theorem vlanStep_eq (settings : Option ProjectDpuSettings) (t : DpuTable) (e : VlanEvent) :
    vlanStep settings t e = some ((call settings t e).toOption.getD t) := rfl

theorem Slot.exists_at? (h : slot.net.Spans offset) :
    ∃ a, slot.net.at? offset = some a ∧ (a.address : Int) = slot.net.address + offset := by
  obtain ⟨a, ha⟩ := Option.ne_none_iff_exists'.mp fun hnone ↦ Subnet.at?_eq_none_iff.mp hnone h
  exact ⟨a, ha, (Subnet.at?_eq_some_iff.mp ha).2.1⟩

theorem planned_create_iff (hs : Planned settings t) :
    Planned settings ((createDpu settings t data).toOption.getD t) ↔ Safe settings t (.create data) := by
  have hcreated := createDpu_created settings t data
  generalize createDpu settings t data = r at hcreated
  cases hcreated with
  | raised exc slot hslot => exact iff_of_true hs fun _ hreaches ↦ absurd (hreaches slot) hslot
  | refused exc hconflict =>
    exact iff_of_true hs fun hfree ↦ absurd (hconflict.symm.trans hfree) Bool.noConfusion
  | added vlans hfree hheld =>
    constructor
    · intro hplanned _ _ slot hspans
      obtain ⟨a, hat, haddress⟩ := slot.exists_at? hspans
      have hnew := (hheld slot).2.symm.trans hat
      refine ⟨fun hfamily ↦ (Subnet.usable_iff hat).mp ?_, fun d hd ⟨b, hb, hba⟩ ↦ ?_⟩
      · exact hplanned.usable slot hfamily _ (mem_append_right _ mem_cons_self) a hnew
      · have hpair := (pairwise_append.mp (hplanned.distinct slot)).2.2 d hd _
          mem_cons_self b hb a hnew
        omega
    · intro hsafe
      have hsafe := hsafe hfree fun slot ↦ (hheld slot).1
      have hnew {slot : Slot settings} {a : Interface} (ha : a ∈ vlans.held slot.vlan slot.family) :
          slot.net.at? (slot.createOffset t.dpus.length) = some a := (hheld slot).2.trans ha
      refine ⟨fun slot ↦ ?_, fun slot hfamily d hd a ha ↦ ?_⟩
      · refine pairwise_append.mpr ⟨hs.distinct slot, pairwise_singleton .., ?_⟩
        intro d hd d' hd' b hb a ha heq
        obtain rfl := mem_singleton.mp hd'
        obtain ⟨hspans, haddress, -⟩ := Subnet.at?_eq_some_iff.mp (hnew ha)
        exact (hsafe slot hspans).2 d hd ⟨b, hb, by omega⟩
      · rcases mem_append.mp hd with hd | hd
        · exact hs.usable slot hfamily d hd a ha
        · obtain rfl := mem_singleton.mp hd
          have hspans := (Subnet.at?_eq_some_iff.mp (hnew ha)).1
          exact (Subnet.usable_iff (hnew ha)).mpr ((hsafe slot hspans).1 hfamily)

theorem planned_delete (hs : Planned settings t) (id : Nat) :
    Planned settings ((deleteDpu t id).toOption.getD t) := by
  unfold deleteDpu
  split
  · exact ⟨fun slot ↦ (hs.distinct slot).sublist filter_sublist, fun slot hfamily d hd ↦
      hs.usable slot hfamily d (mem_of_mem_filter hd)⟩
  · exact hs

theorem distinct_iff {dpus : List Dpu} :
    (dpus.Pairwise fun d d' ↦ ∀ a ∈ slot.held d, ∀ a' ∈ slot.held d', a.address ≠ a'.address) ↔
      ∀ i j (hi : i < dpus.length) (hj : j < dpus.length), i ≠ j →
        ∀ a ∈ slot.held dpus[i], ∀ a' ∈ slot.held dpus[j], a.address ≠ a'.address := by
  rw [pairwise_iff_getElem]
  constructor
  · intro h i j hi hj hne a ha a' ha'
    rcases Nat.lt_or_gt_of_ne hne with hlt | hlt
    · exact h i j hi hj hlt a ha a' ha'
    · exact (h j i hj hi hlt a' ha' a ha).symm
  · intro h i j hi hj hlt
    exact h i j hi hj hlt.ne

theorem planned_autoAssign_iff (hs : Planned settings t) :
    Planned settings (((autoAssignVlanIps settings t).map Prod.fst).toOption.getD t) ↔
      Safe settings t .autoAssign := by
  have hsnapped := autoAssignVlanIps_snapped settings t
  generalize autoAssignVlanIps settings t = r at hsnapped
  cases hsnapped with
  | raised exc slot i hi hslot =>
    exact iff_of_true hs fun hreaches ↦ absurd (hreaches slot i hi) hslot
  | assigned t' n hlength hheld =>
    change Planned settings t' ↔ _
    -- A row has the address of its number, or, where that is none of the subnet, what it had.
    have hin {slot : Slot settings} {i : Nat} (hi : i < t.dpus.length) (hi' : i < t'.dpus.length)
        {a : Interface} (ha : slot.net.at? (slot.autoOffset i) = some a) :
        slot.held t'.dpus[i] = some a := by
      rw [(hheld slot i hi hi').2, ha, Option.some_or]
    have hout {slot : Slot settings} {i : Nat} (hi : i < t.dpus.length) (hi' : i < t'.dpus.length)
        (hspans : ¬ slot.net.Spans (slot.autoOffset i)) :
        slot.held t'.dpus[i] = slot.held t.dpus[i] := by
      rw [(hheld slot i hi hi').2, Subnet.at?_eq_none_iff.mpr hspans, Option.none_or]
    constructor
    · intro hplanned _ slot i hi hspans
      have hi' := hlength ▸ hi
      obtain ⟨a, hat, haddress⟩ := slot.exists_at? hspans
      refine ⟨fun hfamily ↦ (Subnet.usable_iff hat).mp ?_, fun j hj hnot ⟨b, hb, hba⟩ ↦ ?_⟩
      · exact hplanned.usable slot hfamily _ (getElem_mem hi') a (hin hi hi' hat)
      · have hj' := hlength ▸ hj
        have hne : i ≠ j := by
          rintro rfl
          exact hnot hspans
        have hpair := distinct_iff.mp (hplanned.distinct slot) i j hi' hj' hne a (hin hi hi' hat) b
          ((hout hj hj' hnot).symm ▸ hb)
        omega
    · intro hsafe
      have hsafe := hsafe fun slot i hi ↦ (hheld slot i hi (hlength ▸ hi)).1
      refine ⟨fun slot ↦ distinct_iff.mpr fun i j hi' hj' hne a ha b hb heq ↦ ?_,
        fun slot hfamily d hd a ha ↦ ?_⟩
      · have hi := hlength ▸ hi'
        have hj := hlength ▸ hj'
        by_cases hspans : slot.net.Spans (slot.autoOffset i)
        · obtain ⟨_, hat, haddress⟩ := slot.exists_at? hspans
          cases (hin hi hi' hat).symm.trans ha
          by_cases hspans' : slot.net.Spans (slot.autoOffset j)
          · obtain ⟨_, hbt, haddress'⟩ := slot.exists_at? hspans'
            cases (hin hj hj' hbt).symm.trans hb
            unfold Slot.autoOffset at haddress haddress'
            omega
          · rw [hout hj hj' hspans'] at hb
            exact (hsafe slot i hi hspans).2 j hj hspans' ⟨b, hb, by omega⟩
        · rw [hout hi hi' hspans] at ha
          by_cases hspans' : slot.net.Spans (slot.autoOffset j)
          · obtain ⟨_, hbt, haddress'⟩ := slot.exists_at? hspans'
            cases (hin hj hj' hbt).symm.trans hb
            exact (hsafe slot j hj hspans').2 i hi hspans ⟨a, ha, by omega⟩
          · rw [hout hj hj' hspans'] at hb
            exact distinct_iff.mp (hs.distinct slot) i j hi hj hne a ha b hb heq
      · obtain ⟨i, hi', rfl⟩ := getElem_of_mem hd
        have hi := hlength ▸ hi'
        by_cases hspans : slot.net.Spans (slot.autoOffset i)
        · obtain ⟨b, hat, -⟩ := slot.exists_at? hspans
          cases (hin hi hi' hat).symm.trans ha
          exact (Subnet.usable_iff hat).mpr ((hsafe slot i hi hspans).1 hfamily)
        · rw [hout hi hi' hspans] at ha
          exact hs.usable slot hfamily _ (getElem_mem hi) a ha

theorem planned_step_iff (hs : Planned settings t) (hstep : vlanStep settings t e = some t') :
    Planned settings t' ↔ Safe settings t e := by
  obtain rfl := Option.some.inj hstep
  cases e with
  | create data => exact planned_create_iff hs
  | delete id => exact iff_of_true (planned_delete hs id) trivial
  | autoAssign => exact planned_autoAssign_iff hs

theorem planned_empty : Planned settings .empty := ⟨fun _ ↦ List.Pairwise.nil, fun _ _ _ ↦ nofun⟩

end

/-- The addresses are as asked after every call exactly in the runs of safe calls. -/
theorem vlan_addresses_planned_iff (settings : Option ProjectDpuSettings) (es : List VlanEvent) :
    Throughout (vlanStep settings) (Planned settings) .empty es ↔
      ∃ t, Run (vlanStep settings) (Safe settings) .empty es t := by
  obtain ⟨t, hrun⟩ := Run.exists_free (fun s e ↦ ⟨_, vlanStep_eq settings s e⟩) .empty es
  rw [hrun.throughout_iff planned_empty fun _ _ _ ↦ planned_step_iff]
  constructor
  · intro hsafe
    exact ⟨t, hsafe⟩
  · rintro ⟨u, hsafe⟩
    obtain rfl := hrun.unique hsafe
    exact hsafe

/-- `build_pristine_dpu_settings`: `10.10.20.0/24` and `10.10.10.0/24`. -/
def pristineSettings : ProjectDpuSettings where
  external := {
    ipv4Subnet := some ⟨10 * 2 ^ 24 + 10 * 2 ^ 16 + 20 * 2 ^ 8, 24, by decide, by decide, by decide⟩
    startHost := some 100 }
  internal := {
    ipv4Subnet := some ⟨10 * 2 ^ 24 + 10 * 2 ^ 16 + 10 * 2 ^ 8, 24, by decide, by decide, by decide⟩
    startHost := some 100 }

/-- Two DPUs are created, the first is deleted, and one is created in its place. -/
def replaced : List VlanEvent :=
  [.create { bmcIp := some "10.0.0.1" }, .create { bmcIp := some "10.0.0.2" }, .delete 1,
    .create { bmcIp := some "10.0.0.3" }]

/-- The DPU that is created after a deletion gets the address of the one before it. -/
theorem replacement_shares_address :
    (((exec (vlanStep (some pristineSettings)) .empty replaced).map fun t ↦
      t.dpus.map fun d ↦ (d.id, d.vlans.held .external .ipv4)) =
        some [(2, some ⟨10 * 2 ^ 24 + 10 * 2 ^ 16 + 20 * 2 ^ 8 + 2, 24⟩),
          (3, some ⟨10 * 2 ^ 24 + 10 * 2 ^ 16 + 20 * 2 ^ 8 + 2, 24⟩)]) ∧
      ¬ ∀ settings es, Throughout (vlanStep settings) (Planned settings) .empty es := by
  refine ⟨rfl, fun h ↦ ?_⟩
  have hall := (h (some pristineSettings) replaced).2
  have hplanned := ((((hall _ rfl).2 _ rfl).2 _ rfl).2 _ rfl).1
  have hdistinct := hplanned.distinct ⟨.external, .ipv4, _, _, rfl, rfl⟩
  exact distinct_iff.mp hdistinct 0 1 (by decide) (by decide) (by decide) _ rfl _ rfl rfl

end BnkForge.VlanIpam
