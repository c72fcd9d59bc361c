import Mathlib.Algebra.Order.Group.Nat
import Mathlib.Tactic.Ring

/-!
# Subnets of an address space

The addresses of a space of `bits` bits are the numbers below `2 ^ bits`; a subnet is an address
whose host bits are zero, with the length of its mask. An offset is counted from the address of the
subnet and may be any integer.
-/

namespace AddressSpace

structure Subnet (bits : Nat) where
  address : Nat
  prefixLen : Nat
  prefixLen_le : prefixLen ≤ bits
  address_lt : address < 2 ^ bits
  aligned : 2 ^ (bits - prefixLen) ∣ address
  deriving DecidableEq, Repr

/-- An address with the length of the mask of its subnet, as in the text `10.0.0.7/24`. -/
structure Interface where
  address : Nat
  prefixLen : Nat
  deriving DecidableEq, Repr

namespace Subnet

variable {bits : Nat} (net : Subnet bits) {offset offset' : Int}

/-- The number of addresses. -/
def size : Nat := 2 ^ (bits - net.prefixLen)

/-- `address in net`. -/
def contains (address : Nat) : Bool := net.address ≤ address && address < net.address + net.size

/-- The address of a host: neither the address of the subnet nor its broadcast address. -/
def Usable (address : Nat) : Prop := net.address < address ∧ address + 1 < net.address + net.size

def Reaches (offset : Int) : Prop := 0 ≤ net.address + offset ∧ net.address + offset < (2 ^ bits : Nat)

instance (offset : Int) : Decidable (net.Reaches offset) :=
  inferInstanceAs (Decidable (_ ∧ _))

/-- `net.network_address + offset`, `none` where it raises `AddressValueError`. -/
def shift (offset : Int) : Option Nat :=
  if net.Reaches offset then some (net.address + offset).toNat else none

/-- The offset is that of an address of the subnet. -/
def Spans (offset : Int) : Prop := 0 ≤ offset ∧ offset < net.size

instance (offset : Int) : Decidable (net.Spans offset) := inferInstanceAs (Decidable (_ ∧ _))

def HostOffset (offset : Int) : Prop := 0 < offset ∧ offset + 1 < net.size

instance (offset : Int) : Decidable (net.HostOffset offset) := inferInstanceAs (Decidable (_ ∧ _))

def at? (offset : Int) : Option Interface :=
  if net.Spans offset then some ⟨(net.address + offset).toNat, net.prefixLen⟩ else none

variable {net}

/-- An offset leads into the subnet where it spans it. -/
theorem contains_shift_iff (h : net.Reaches offset) :
    net.contains (net.address + offset).toNat = true ↔ net.Spans offset := by
  obtain ⟨hzero, -⟩ := h
  simp only [contains, Bool.and_eq_true, decide_eq_true_eq, Spans]
  omega

theorem at?_eq_some_iff {a : Interface} :
    net.at? offset = some a ↔
      net.Spans offset ∧ (a.address : Int) = net.address + offset ∧ a.prefixLen = net.prefixLen := by
  unfold at?
  split
  case isTrue h =>
    have hzero := h.1
    rw [Option.some.injEq]
    constructor
    · rintro rfl
      exact ⟨h, Int.toNat_of_nonneg (by omega), rfl⟩
    · rintro ⟨-, haddress, hlength⟩
      obtain ⟨address, length⟩ := a
      simp only at haddress hlength
      rw [← haddress, Int.toNat_natCast, hlength]
  case isFalse h =>
    exact iff_of_false nofun fun hspans ↦ h hspans.1

theorem at?_eq_none_iff : net.at? offset = none ↔ ¬ net.Spans offset := by
  unfold at?
  split
  case isTrue h => exact iff_of_false nofun fun hnot ↦ hnot h
  case isFalse h => exact iff_of_true rfl h

theorem usable_iff {a : Interface} (h : net.at? offset = some a) :
    net.Usable a.address ↔ net.HostOffset offset := by
  obtain ⟨-, haddress, -⟩ := at?_eq_some_iff.mp h
  unfold Usable HostOffset
  omega

end Subnet

end AddressSpace
