import Mathlib.Algebra.Order.Group.Nat
import Mathlib.Data.List.FinRange
import Mathlib.Data.Nat.Log
import Mathlib.Tactic.Ring

/-!
# IPv4 addresses and networks

Addresses are numbers below `2 ^ 32` with their dotted text; a network is an address whose host
bits are zero, with the length of its mask. The operations are those of Python's `ipaddress`.
-/

namespace IPv4

open List

/-! ### The dotted text of an address -/

def octetText (n : Nat) : List Char := (toString n).toList

/-- An octet as `ipaddress` reads it: one to three digits without a leading zero, up to 255. -/
def octet (cs : List Char) : Option Nat :=
  if !cs.isEmpty && cs.all Char.isDigit && cs.length ≤ 3 && (cs.length == 1 || cs.head? != some '0')
  then
    let n := cs.foldl (fun n c ↦ 10 * n + (c.toNat - '0'.toNat)) 0
    if n ≤ 255 then some n else none
  else none

def octets (address : Nat) : List Nat :=
  [address / 2 ^ 24 % 256, address / 2 ^ 16 % 256, address / 2 ^ 8 % 256, address % 256]

def format (address : Nat) : String :=
  String.ofList (['.'].intercalate ((octets address).map octetText))

/-- The address of a dotted text, `none` where `ipaddress` raises `AddressValueError`. -/
def parse (text : String) : Option Nat :=
  match (text.toList.splitOn '.').mapM octet with
  | some [a, b, c, d] => some (((a * 256 + b) * 256 + c) * 256 + d)
  | _ => none

private theorem octet_octetText_fin : ∀ n : Fin 256, octet (octetText n) = some n.val := by
  decide +kernel

private theorem dot_not_mem_octetText_fin : ∀ n : Fin 256, '.' ∉ octetText n := by
  decide +kernel

private theorem octet_octetText {n : Nat} (h : n < 256) : octet (octetText n) = some n :=
  octet_octetText_fin ⟨n, h⟩

private theorem dot_not_mem_octetText {n : Nat} (h : n < 256) : '.' ∉ octetText n :=
  dot_not_mem_octetText_fin ⟨n, h⟩

private theorem octets_lt {address n : Nat} (h : n ∈ octets address) : n < 256 := by
  simp only [octets, mem_cons, not_mem_nil, or_false] at h
  omega

/-- Reading back the text of an address. -/
theorem parse_format {address : Nat} (h : address < 2 ^ 32) : parse (format address) = some address := by
  have hsplit : (format address).toList.splitOn '.' = (octets address).map octetText := by
    unfold format
    rw [String.toList_ofList]
    refine splitOn_intercalate '.' ?_ (by simp [octets])
    intro cs hcs
    obtain ⟨n, hn, rfl⟩ := mem_map.mp hcs
    exact dot_not_mem_octetText (octets_lt hn)
  have hmap : ∀ ns : List Nat, (∀ n ∈ ns, n < 256) → (ns.map octetText).mapM octet = some ns := by
    intro ns hns
    induction ns with
    | nil => rfl
    | cons n ns ih =>
      rw [map_cons, mapM_cons, octet_octetText (hns n mem_cons_self),
        ih fun m hm ↦ hns m (mem_cons_of_mem n hm)]
      rfl
  unfold parse
  rw [hsplit, hmap _ fun n ↦ octets_lt]
  simp only [octets, Option.some.injEq]
  omega

/-! ### Networks -/

structure Network where
  address : Nat
  prefixLen : Nat
  prefixLen_le : prefixLen ≤ 32
  address_lt : address < 2 ^ 32
  aligned : 2 ^ (32 - prefixLen) ∣ address
  deriving DecidableEq

namespace Network

variable (n : Network)

/-- The number of addresses. -/
def size : Nat := 2 ^ (32 - n.prefixLen)

theorem address_add_size_le : n.address + n.size ≤ 2 ^ 32 := by
  obtain ⟨k, hk⟩ := n.aligned
  have hpow : 2 ^ (32 - n.prefixLen) * 2 ^ n.prefixLen = 2 ^ 32 := by
    rw [← Nat.pow_add, Nat.sub_add_cancel n.prefixLen_le]
  have hlt := n.address_lt
  rw [hk, ← hpow] at hlt
  have hk' : k + 1 ≤ 2 ^ n.prefixLen := Nat.lt_of_mul_lt_mul_left hlt
  calc n.address + n.size = 2 ^ (32 - n.prefixLen) * (k + 1) := by rw [hk, size]; ring
    _ ≤ 2 ^ (32 - n.prefixLen) * 2 ^ n.prefixLen := Nat.mul_le_mul_left _ hk'
    _ = 2 ^ 32 := hpow

def text : String := format n.address ++ "/" ++ toString n.prefixLen

/-- `network[i]`, `none` where it raises `IndexError`. -/
def item? (i : Nat) : Option Nat := if i < n.size then some (n.address + i) else none

/-- The addresses of `a` are addresses of `b`. -/
def subnetOf (a b : Network) : Prop :=
  b.address ≤ a.address ∧ a.address + a.size ≤ b.address + b.size

/-- A subnet has the longer mask. -/
theorem subnetOf.prefixLen_le {a b : Network} (h : a.subnetOf b) : b.prefixLen ≤ a.prefixLen := by
  have hsize : 2 ^ (32 - a.prefixLen) ≤ 2 ^ (32 - b.prefixLen) := by
    have := h.1
    have := h.2
    unfold size at this
    omega
  have := (Nat.pow_le_pow_iff_right (by decide)).mp hsize
  have := a.prefixLen_le
  have := b.prefixLen_le
  omega

/-- `ip_network((address, prefixLen), strict=False)`: the host bits are dropped. -/
def ofAddress (address prefixLen : Nat) (hlength : prefixLen ≤ 32) (haddress : address < 2 ^ 32) :
    Network where
  address := address / 2 ^ (32 - prefixLen) * 2 ^ (32 - prefixLen)
  prefixLen := prefixLen
  prefixLen_le := hlength
  address_lt := lt_of_le_of_lt (Nat.div_mul_le_self _ _) haddress
  aligned := Nat.dvd_mul_left _ _

theorem ofAddress_eq {address : Nat} (i : Nat) (hi : i < n.size) (haddress : address = n.address + i)
    (hlt : address < 2 ^ 32) : ofAddress address n.prefixLen n.prefixLen_le hlt = n := by
  obtain ⟨k, hk⟩ := n.aligned
  have hpos : 0 < 2 ^ (32 - n.prefixLen) := Nat.two_pow_pos _
  have hbase : address / 2 ^ (32 - n.prefixLen) * 2 ^ (32 - n.prefixLen) = n.address := by
    rw [haddress, hk, Nat.mul_add_div hpos, Nat.div_eq_of_lt (show i < 2 ^ (32 - n.prefixLen) from hi),
      Nat.add_zero, Nat.mul_comm]
  obtain ⟨base, len, hle, hbound, haligned⟩ := n
  simp only [ofAddress, mk.injEq, and_true]
  exact hbase

section

variable {n}

/-- The `i`-th subnet with a longer mask. -/
private theorem subnet_bounds {newPrefix : Nat} (hlonger : n.prefixLen ≤ newPrefix)
    (hnew : newPrefix ≤ 32) (i : Fin (2 ^ (newPrefix - n.prefixLen))) :
    n.address + i * 2 ^ (32 - newPrefix) + 2 ^ (32 - newPrefix) ≤ n.address + n.size := by
  have hpow : 2 ^ (newPrefix - n.prefixLen) * 2 ^ (32 - newPrefix) = n.size := by
    rw [← Nat.pow_add, size]
    congr 1
    omega
  have hi : i.val + 1 ≤ 2 ^ (newPrefix - n.prefixLen) := i.isLt
  calc n.address + i * 2 ^ (32 - newPrefix) + 2 ^ (32 - newPrefix)
      = n.address + (i.val + 1) * 2 ^ (32 - newPrefix) := by ring
    _ ≤ n.address + 2 ^ (newPrefix - n.prefixLen) * 2 ^ (32 - newPrefix) :=
        Nat.add_le_add_left (Nat.mul_le_mul_right _ hi) _
    _ = n.address + n.size := by rw [hpow]

end

/-- The subnet at a position among those with a longer mask. -/
def subnet (newPrefix : Nat) (hlonger : n.prefixLen ≤ newPrefix) (hnew : newPrefix ≤ 32)
    (i : Fin (2 ^ (newPrefix - n.prefixLen))) : Network where
  address := n.address + i * 2 ^ (32 - newPrefix)
  prefixLen := newPrefix
  prefixLen_le := hnew
  address_lt := by
    have hbounds := subnet_bounds hlonger hnew i
    have hpos : 0 < 2 ^ (32 - newPrefix) := Nat.two_pow_pos _
    have := n.address_add_size_le
    omega
  aligned := by
    refine Nat.dvd_add ((Nat.pow_dvd_pow 2 ?_).trans n.aligned) (Nat.dvd_mul_left _ _)
    omega

/-- `subnets(new_prefix=newPrefix)`: a network of one address has itself, whatever the mask asked
for; a shorter mask raises `ValueError`. -/
def subnets (newPrefix : Nat) : Except String (List Network) :=
  if n.prefixLen = 32 then .ok [n]
  else if hlonger : n.prefixLen ≤ newPrefix then
    if hnew : newPrefix ≤ 32 then
      .ok ((List.finRange (2 ^ (newPrefix - n.prefixLen))).map (n.subnet newPrefix hlonger hnew))
    else .error ("prefix length diff " ++ toString newPrefix ++ " is invalid for netblock " ++ n.text)
  else .error "new prefix must be longer"

variable {n}

theorem subnet_subnetOf {newPrefix : Nat} (hlonger : n.prefixLen ≤ newPrefix) (hnew : newPrefix ≤ 32)
    (i : Fin (2 ^ (newPrefix - n.prefixLen))) : (n.subnet newPrefix hlonger hnew i).subnetOf n :=
  ⟨Nat.le_add_right _ _, subnet_bounds hlonger hnew i⟩

/-- The subnets of a network are those networks with the longer mask that it contains. -/
theorem mem_subnets {newPrefix : Nat} {subs : List Network} (hlength : n.prefixLen ≠ 32)
    (h : n.subnets newPrefix = .ok subs) (sub : Network) :
    sub ∈ subs ↔ sub.prefixLen = newPrefix ∧ sub.subnetOf n := by
  unfold subnets at h
  rw [if_neg hlength] at h
  split at h
  · next hlonger =>
    split at h
    · next hnew =>
      cases h
      simp only [mem_map, mem_finRange, true_and]
      constructor
      · rintro ⟨i, rfl⟩
        exact ⟨rfl, subnet_subnetOf hlonger hnew i⟩
      · rintro ⟨rfl, hlow, hhigh⟩
        -- the offset of an aligned address is a multiple of the subnet's size
        have hdvd : 2 ^ (32 - sub.prefixLen) ∣ sub.address - n.address := by
          refine Nat.dvd_sub sub.aligned ((Nat.pow_dvd_pow 2 ?_).trans n.aligned)
          omega
        obtain ⟨k, hk⟩ := hdvd
        have hpow : 2 ^ (sub.prefixLen - n.prefixLen) * 2 ^ (32 - sub.prefixLen) = n.size := by
          rw [← Nat.pow_add, size]
          congr 1
          omega
        have hlt : k < 2 ^ (sub.prefixLen - n.prefixLen) := by
          have hle : 2 ^ (32 - sub.prefixLen) * (k + 1) ≤
              2 ^ (32 - sub.prefixLen) * 2 ^ (sub.prefixLen - n.prefixLen) := by
            rw [Nat.mul_comm _ (2 ^ (sub.prefixLen - n.prefixLen)), hpow, Nat.mul_add, ← hk,
              Nat.mul_one]
            unfold size at hhigh ⊢
            omega
          exact Nat.le_of_mul_le_mul_left hle (Nat.two_pow_pos _)
        refine ⟨⟨k, hlt⟩, ?_⟩
        obtain ⟨base, len, hle, hbase, haligned⟩ := sub
        simp only [subnet, mk.injEq, and_true]
        dsimp only at hk hlow
        rw [Nat.mul_comm, ← hk]
        omega
    · cases h
  · cases h

theorem subnets_eq_ok {newPrefix : Nat} (hlonger : n.prefixLen ≤ newPrefix) (hnew : newPrefix ≤ 32) :
    ∃ subs, n.subnets newPrefix = .ok subs := by
  unfold subnets
  split
  · exact ⟨_, rfl⟩
  · exact ⟨_, rfl⟩

def disjoint (a b : Network) : Prop := a.address + a.size ≤ b.address ∨ b.address + b.size ≤ a.address

instance (a b : Network) : Decidable (a.subnetOf b) :=
  inferInstanceAs (Decidable (b.address ≤ a.address ∧ a.address + a.size ≤ b.address + b.size))

instance (a b : Network) : Decidable (a.disjoint b) :=
  inferInstanceAs (Decidable (a.address + a.size ≤ b.address ∨ b.address + b.size ≤ a.address))

theorem disjoint.symm {a b : Network} (h : a.disjoint b) : b.disjoint a := Or.symm h

/-- Subnets at different positions are disjoint. -/
theorem subnet_disjoint {newPrefix : Nat} (hlonger : n.prefixLen ≤ newPrefix) (hnew : newPrefix ≤ 32)
    {i j : Fin (2 ^ (newPrefix - n.prefixLen))} (h : i ≠ j) :
    (n.subnet newPrefix hlonger hnew i).disjoint (n.subnet newPrefix hlonger hnew j) := by
  have hbelow : ∀ {i j : Fin (2 ^ (newPrefix - n.prefixLen))}, i < j →
      (n.subnet newPrefix hlonger hnew i).address + (n.subnet newPrefix hlonger hnew i).size ≤
        (n.subnet newPrefix hlonger hnew j).address := by
    intro i j hlt
    calc n.address + i * 2 ^ (32 - newPrefix) + 2 ^ (32 - newPrefix)
        = n.address + (i.val + 1) * 2 ^ (32 - newPrefix) := by ring
      _ ≤ n.address + j * 2 ^ (32 - newPrefix) := Nat.add_le_add_left (Nat.mul_le_mul_right _ hlt) _
  rcases lt_or_gt_of_ne h with hlt | hlt
  · exact Or.inl (hbelow hlt)
  · exact Or.inr (hbelow hlt)

/-! ### The text of a network -/

/-- The number of ones of a netmask. -/
def maskLength (mask : Nat) : Option Nat := (List.range 33).find? fun p ↦ mask + 2 ^ (32 - p) = 2 ^ 32

/-- A length of at most `most`. Python does not convert a text of more than 4300 digits. -/
def lengthText (most : Nat) (cs : List Char) : Option Nat :=
  if !cs.isEmpty && cs.all Char.isDigit && cs.length ≤ 4300 then
    let n := cs.foldl (fun n c ↦ 10 * n + (c.toNat - '0'.toNat)) 0
    if n ≤ most then some n else none
  else none

/-- What stands behind the slash: the length of the mask, or the mask or its inverse as an address. -/
def prefixLength (cs : List Char) : Option Nat :=
  match lengthText 32 cs with
  | some prefixLen => some prefixLen
  | none =>
    (IPv4.parse (String.ofList cs)).bind fun mask ↦
      (maskLength mask).or (maskLength (2 ^ 32 - 1 - mask))

def make (address prefixLen : Nat) : Option Network :=
  if h : prefixLen ≤ 32 ∧ address < 2 ^ 32 then some (ofAddress address prefixLen h.1 h.2) else none

/-- `IPv4Network(text, strict=False)`, `none` where it raises. -/
def parse (text : String) : Option Network :=
  match text.toList.splitOn '/' with
  | [address] => (IPv4.parse (String.ofList address)).bind fun a ↦ make a 32
  | [address, mask] =>
    (IPv4.parse (String.ofList address)).bind fun a ↦ (prefixLength mask).bind fun p ↦ make a p
  | _ => none

private theorem prefixLength_fin : ∀ p : Fin 33, prefixLength (toString p.val).toList = some p.val ∧
    '/' ∉ (toString p.val).toList := by
  decide +kernel

private theorem slash_not_mem_octetText_fin : ∀ o : Fin 256, '/' ∉ octetText o := by
  decide +kernel

private theorem slash_not_mem_format (address : Nat) : '/' ∉ (format address).toList := by
  have hoctet : ∀ o < 256, '/' ∉ octetText o := fun o ho ↦ slash_not_mem_octetText_fin ⟨o, ho⟩
  unfold format octets
  simp only [String.toList_ofList, map_cons, map_nil, intercalate_cons_cons,
    intercalate_singleton, mem_append, mem_singleton, not_or]
  refine ⟨⟨hoctet _ ?_, by decide⟩, ⟨hoctet _ ?_, by decide⟩, ⟨hoctet _ ?_, by decide⟩, hoctet _ ?_⟩
  all_goals exact Nat.mod_lt _ (by decide)

theorem make_self (n : Network) : make n.address n.prefixLen = some n := by
  rw [make, dif_pos ⟨n.prefixLen_le, n.address_lt⟩]
  exact congrArg some (n.ofAddress_eq 0 (Nat.two_pow_pos _) rfl n.address_lt)

/-- Reading back the text of a network. -/
theorem parse_text (n : Network) : parse n.text = some n := by
  obtain ⟨hlength, hslash⟩ := prefixLength_fin ⟨n.prefixLen, Nat.lt_succ_of_le n.prefixLen_le⟩
  have hsplit : n.text.toList.splitOn '/' = [(format n.address).toList, (toString n.prefixLen).toList] := by
    have htext : n.text.toList =
        ['/'].intercalate [(format n.address).toList, (toString n.prefixLen).toList] := by
      rw [text, String.toList_append, String.toList_append, intercalate_cons_cons,
        intercalate_singleton]
      rfl
    rw [htext, splitOn_intercalate '/' ?_ (cons_ne_nil _ _)]
    intro cs hcs
    simp only [mem_cons, not_mem_nil, or_false] at hcs
    rcases hcs with rfl | rfl
    · exact slash_not_mem_format n.address
    · exact hslash
  unfold parse
  rw [hsplit]
  dsimp only
  rw [String.ofList_toList, parse_format n.address_lt, Option.bind_some, hlength, Option.bind_some,
    make_self]

end Network

end IPv4
