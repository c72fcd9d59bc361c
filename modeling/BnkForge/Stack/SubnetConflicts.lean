import BnkForge.Stack.AwsSubnets

/-!
# Conflicts between subnets of a VPC

The subnets that `_normalize_aws_vpc_subnet_cidrs` fills in lie inside the VPC, are not too small for AWS
and do not overlap with each other. They overlap with a subnet of the user exactly where one of its
addresses is at one of the fixed positions that are filled in.
-/

namespace BnkForge.AwsVpc

open Python IPv4 List

def positions : List (String × Nat) :=
  [("public_subnet_cidr", 1), ("private_external_subnet_a_cidr", 10),
    ("private_external_subnet_b_cidr", 11), ("private_internal_subnet_a_cidr", 20),
    ("private_internal_subnet_b_cidr", 21)]

def start (vpc : Network) (i : Nat) : Nat := vpc.address + i * 2 ^ (32 - targetPrefix vpc)

/-- A subnet that the variables do not give. -/
def missing (vars : Dict String Value) (key : String) : Bool := !(valueAt vars key).truthy

section

variable (repr : Value → String) (vpc : Network) (vars : Dict String Value)

/-- The network of IPv4 that the variables give. -/
def networkAt (key : String) : Option Network :=
  if missing vars key then none
  else
    match ipNetwork repr (valueAt vars key) with
    | some (.v4 n) => some n
    | _ => none

/-- The subnets that are given lie inside the VPC and are pairwise disjoint. -/
structure Supplied : Prop where
  within : ∀ k ∈ awsVpcSubnetVarNames, missing vars k = false →
    ∃ n, networkAt repr vars k = some n ∧ n.subnetOf vpc
  disjoint : ∀ k ∈ awsVpcSubnetVarNames, ∀ k' ∈ awsVpcSubnetVarNames, k ≠ k' → ∀ n n',
    networkAt repr vars k = some n → networkAt repr vars k' = some n' → n.disjoint n'

/-- All subnets lie inside the VPC and are pairwise disjoint, and those that were missing have at most the
mask that AWS accepts. -/
structure ConflictFree (vars' : Dict String Value) : Prop where
  within : ∀ k ∈ awsVpcSubnetVarNames, ∃ n, networkAt repr vars' k = some n ∧ n.subnetOf vpc
  prefixLen_le : ∀ k ∈ awsVpcSubnetVarNames, missing vars k = true → ∀ n,
    networkAt repr vars' k = some n → n.prefixLen ≤ 28
  disjoint : ∀ k ∈ awsVpcSubnetVarNames, ∀ k' ∈ awsVpcSubnetVarNames, k ≠ k' → ∀ n n',
    networkAt repr vars' k = some n → networkAt repr vars' k' = some n' → n.disjoint n'

def Clear : Prop :=
  ∀ p ∈ positions, missing vars p.1 = true → ∀ k ∈ awsVpcSubnetVarNames, ∀ n,
    networkAt repr vars k = some n → n.address + n.size ≤ start vpc p.2 ∨ start vpc (p.2 + 1) ≤ n.address

end

section

variable {repr : Value → String} {vpc : Network} {vars : Dict String Value} {vpcCidr : Value}
  {derived : List (String × String)} {explicitUserKeys keys : List String} {key : String}

/-! ### The defaults -/

theorem targetPrefix_bounds (h : vpc.prefixLen ≤ 23) :
    vpc.prefixLen + 5 ≤ targetPrefix vpc ∧ targetPrefix vpc ≤ 28 := by
  unfold targetPrefix
  omega

def block (vpc : Network) (h : vpc.prefixLen ≤ 23) (i : Fin 32) : Network :=
  vpc.subnet (targetPrefix vpc) (by have := targetPrefix_bounds h; omega)
    (by have := targetPrefix_bounds h; omega)
    ⟨i, lt_of_lt_of_le i.isLt (Nat.pow_le_pow_right (by decide) (by have := targetPrefix_bounds h; omega) :
      2 ^ 5 ≤ 2 ^ (targetPrefix vpc - vpc.prefixLen))⟩

theorem block_address (h : vpc.prefixLen ≤ 23) (i : Fin 32) : (block vpc h i).address = start vpc i := rfl

theorem block_end (h : vpc.prefixLen ≤ 23) (i : Fin 32) :
    (block vpc h i).address + (block vpc h i).size = start vpc (i + 1) := by
  have hsize : (block vpc h i).size = 2 ^ (32 - targetPrefix vpc) := rfl
  rw [block_address, hsize, start, start]
  ring

theorem block_disjoint (h : vpc.prefixLen ≤ 23) {i j : Fin 32} (hne : i ≠ j) :
    (block vpc h i).disjoint (block vpc h j) :=
  Network.subnet_disjoint _ _ fun heq ↦ hne (Fin.ext (Fin.mk.inj heq))

theorem disjoint_block_iff (h : vpc.prefixLen ≤ 23) (i : Fin 32) (n : Network) :
    n.disjoint (block vpc h i) ↔ n.address + n.size ≤ start vpc i ∨ start vpc (i + 1) ≤ n.address := by
  rw [Network.disjoint, block_end, block_address]

theorem derive_eq_ok (h : vpc.prefixLen ≤ 23) : ∃ derived,
    deriveAwsVpcSubnetDefaults repr vpcCidr vpc = .ok derived ∧
    ∀ p ∈ positions, ∃ i : Fin 32, i.val = p.2 ∧ derived.lookup p.1 = some (block vpc h i).text := by
  obtain ⟨hlow, hhigh⟩ := targetPrefix_bounds h
  have hsubs : vpc.subnets (targetPrefix vpc) = .ok ((List.finRange (2 ^ (targetPrefix vpc - vpc.prefixLen))).map
      (vpc.subnet (targetPrefix vpc) (by omega) (by omega))) := by
    rw [Network.subnets, if_neg (by omega), dif_pos (by omega), dif_pos (by omega)]
  have hmany : 32 ≤ 2 ^ (targetPrefix vpc - vpc.prefixLen) :=
    (Nat.pow_le_pow_right (by decide) (by omega) : 2 ^ 5 ≤ 2 ^ (targetPrefix vpc - vpc.prefixLen))
  have htext : ∀ i : Fin 32, textAt ((List.finRange (2 ^ (targetPrefix vpc - vpc.prefixLen))).map
      (vpc.subnet (targetPrefix vpc) (by omega) (by omega))) i = (block vpc h i).text := by
    intro i
    have hi : i.val < 2 ^ (targetPrefix vpc - vpc.prefixLen) := lt_of_lt_of_le i.isLt hmany
    rw [textAt, getElem?_map, getElem?_eq_getElem (by rwa [length_finRange]), getElem_finRange]
    rfl
  rw [deriveAwsVpcSubnetDefaults, if_neg (by omega), hsubs]
  dsimp only
  rw [if_neg (by rw [length_map, length_finRange]; omega)]
  refine ⟨_, rfl, ?_⟩
  have h1 := htext 1
  have h10 := htext 10
  have h11 := htext 11
  have h20 := htext 20
  have h21 := htext 21
  simp only [positions, forall_mem_cons]
  refine ⟨⟨1, rfl, ?_⟩, ⟨10, rfl, ?_⟩, ⟨11, rfl, ?_⟩, ⟨20, rfl, ?_⟩, ⟨21, rfl, ?_⟩,
    fun _ h ↦ absurd h not_mem_nil⟩
  · exact congrArg some h1
  · exact congrArg some h10
  · exact congrArg some h11
  · exact congrArg some h20
  · exact congrArg some h21

/-! ### The loop -/

theorem valueAt_set_of_ne {v : Value} {key' : String} (h : key' ≠ key) :
    valueAt (vars.set key v) key' = valueAt vars key' := by
  rw [valueAt, Dict.get?_set, if_neg h]
  rfl

theorem normalizeKeys_eq_ok (hkeys : keys.Nodup)
    (hin : ∀ k ∈ keys, missing vars k = false → inVpc repr vpc (valueAt vars k) = .ok true) :
    ∃ vars', normalizeKeys repr vpcCidr vpc derived explicitUserKeys vars keys = .ok vars' ∧
      ∀ k, vars'.get? k = if k ∈ keys ∧ missing vars k = true then some (.str ((derived.lookup k).getD ""))
        else vars.get? k := by
  induction keys generalizing vars with
  | nil => exact ⟨vars, rfl, fun k ↦ (if_neg fun h ↦ not_mem_nil h.1).symm⟩
  | cons key keys ih =>
    obtain ⟨hkey, hkeys⟩ := nodup_cons.mp hkeys
    have hne : ∀ k ∈ keys, k ≠ key := fun k hk heq ↦ hkey (heq ▸ hk)
    unfold normalizeKeys normalizeKey
    cases hmissing : missing vars key with
    | true =>
      have hcond : (!(valueAt vars key).truthy) = true := hmissing
      rw [if_pos hcond]
      have hsame : ∀ k ∈ keys, valueAt (vars.set key (.str ((derived.lookup key).getD ""))) k =
          valueAt vars k := fun k hk ↦ valueAt_set_of_ne (hne k hk)
      obtain ⟨vars', hok, hvars'⟩ := @ih (vars.set key (.str ((derived.lookup key).getD ""))) hkeys (by
        intro k hk hgiven
        rw [missing, hsame k hk] at hgiven
        rw [hsame k hk]
        exact hin k (mem_cons_of_mem key hk) hgiven)
      refine ⟨vars', hok, fun k ↦ ?_⟩
      rw [hvars', Dict.get?_set]
      by_cases hk : k = key
      · subst hk
        rw [if_neg fun h ↦ hkey h.1, if_pos rfl, if_pos ⟨mem_cons_self, hmissing⟩]
      · by_cases hmem : k ∈ keys
        · have hmiss : missing (vars.set key (.str ((derived.lookup key).getD ""))) k = missing vars k := by
            rw [missing, hsame k hmem, missing]
          rw [hmiss, if_neg hk]
          simp only [hmem, mem_cons, hk, false_or]
        · rw [if_neg fun h ↦ hmem h.1, if_neg hk,
            if_neg fun h ↦ (mem_cons.mp h.1).elim hk hmem]
    | false =>
      have hcond : ¬ (!(valueAt vars key).truthy) = true := fun h ↦
        Bool.false_ne_true (hmissing.symm.trans h)
      rw [if_neg hcond, hin key mem_cons_self hmissing]
      dsimp only
      obtain ⟨vars', hok, hvars'⟩ := ih hkeys fun k hk ↦ hin k (mem_cons_of_mem key hk)
      refine ⟨vars', hok, fun k ↦ ?_⟩
      rw [hvars']
      by_cases hk : k = key
      · subst hk
        have hgiven : ¬ (k ∈ k :: keys ∧ missing vars k = true) := fun h ↦
          Bool.false_ne_true (hmissing.symm.trans h.2)
        rw [if_neg fun h ↦ hkey h.1, if_neg hgiven]
      · simp only [mem_cons, hk, false_or]

/-! ### The subnets afterwards -/

theorem networkAt_eq_some {n : Network} (h : networkAt repr vars key = some n) :
    missing vars key = false ∧ ipNetwork repr (valueAt vars key) = some (.v4 n) := by
  unfold networkAt at h
  cases hmissing : missing vars key with
  | true => simp [hmissing] at h
  | false =>
    rw [hmissing, if_neg nofun] at h
    refine ⟨rfl, ?_⟩
    split at h
    · next heq =>
      cases h
      exact heq
    · cases h

theorem inVpc_of_networkAt {n : Network} (h : networkAt repr vars key = some n) (hin : n.subnetOf vpc) :
    inVpc repr vpc (valueAt vars key) = .ok true := by
  rw [inVpc, (networkAt_eq_some h).2]
  exact congrArg Except.ok (decide_eq_true hin)

theorem ipNetwork_of_parse {text : String} {n : Network} (h : Network.parse text = some n) :
    ipNetwork repr (.str text) = some (.v4 n) := by
  unfold ipNetwork
  simp only [Value.toText, h]

theorem networkAt_of_text {n : Network} (h : vars.get? key = some (.str n.text)) :
    networkAt repr vars key = some n := by
  have hvalue : valueAt vars key = .str n.text := by rw [valueAt, h, Option.getD_some]
  have hmissing : missing vars key = false := by
    rw [missing, hvalue, Bool.not_eq_false']
    have hne : n.text ≠ "" := fun heq ↦ by
      have hparse := heq ▸ n.parse_text
      cases hparse
    simpa [Value.truthy] using hne
  rw [networkAt, hmissing, if_neg nofun, hvalue, ipNetwork_of_parse n.parse_text]

theorem missing_congr {vars' : Dict String Value} (h : vars'.get? key = vars.get? key) :
    missing vars' key = missing vars key := by
  rw [missing, missing, valueAt, valueAt, h]

theorem networkAt_congr {vars' : Dict String Value} (h : vars'.get? key = vars.get? key) :
    networkAt repr vars' key = networkAt repr vars key := by
  rw [networkAt, networkAt, missing_congr h, valueAt, valueAt, h]

/-- What is at the keys afterwards: the subnets at the positions of those that were missing, and what was
there before. -/
def Filled (repr : Value → String) (h : vpc.prefixLen ≤ 23) (vars vars' : Dict String Value) : Prop :=
  ∀ p ∈ positions,
    (missing vars p.1 = true ∧ ∃ i : Fin 32, i.val = p.2 ∧
      networkAt repr vars' p.1 = some (block vpc h i)) ∨
    (missing vars p.1 = false ∧ networkAt repr vars' p.1 = networkAt repr vars p.1)

theorem normalize_spec (explicitUserKeys : List String) {text : String}
    (hvpc : vars.get? "vpc_cidr" = some (.str text)) (hparse : Network.parse text = some vpc)
    (hlength : vpc.prefixLen ≤ 23) (hsupplied : Supplied repr vpc vars) :
    ∃ vars', normalizeAwsVpcSubnetCidrs repr "infra/aws/vpc" vars explicitUserKeys = .ok vars' ∧
      Filled repr hlength vars vars' := by
  have hvalue : valueAt vars "vpc_cidr" = .str text := by rw [valueAt, hvpc, Option.getD_some]
  have htruthy : (Value.str text).truthy = true := by
    have hne : text ≠ "" := fun heq ↦ by cases heq ▸ hparse
    simpa [Value.truthy] using hne
  have hnetwork : ipNetwork repr (.str text) = some (.v4 vpc) := ipNetwork_of_parse hparse
  obtain ⟨derived, hderive, htext⟩ := @derive_eq_ok repr vpc (.str text) hlength
  obtain ⟨vars', hok, hvars'⟩ := @normalizeKeys_eq_ok repr vpc vars (.str text) derived explicitUserKeys
    awsVpcSubnetVarNames (by decide) fun k hk hgiven ↦ by
      obtain ⟨n, hn, hin⟩ := hsupplied.within k hk hgiven
      exact inVpc_of_networkAt hn hin
  refine ⟨vars', ?_, fun p hp ↦ ?_⟩
  · rw [normalizeAwsVpcSubnetCidrs, if_neg (not_not.mpr rfl), hvalue]
    simp only [htruthy, Bool.not_true, Bool.false_eq_true, if_false, hnetwork, hderive]
    exact hok
  · have hname : p.1 ∈ awsVpcSubnetVarNames := (by decide : ∀ p ∈ positions, p.1 ∈ awsVpcSubnetVarNames) p hp
    obtain ⟨i, hi, hlookup⟩ := htext p hp
    have hget := hvars' p.1
    cases hmissing : missing vars p.1 with
    | true =>
      rw [if_pos ⟨hname, hmissing⟩, hlookup] at hget
      exact Or.inl ⟨rfl, i, hi, networkAt_of_text hget⟩
    | false =>
      rw [if_neg fun h ↦ Bool.false_ne_true (hmissing.symm.trans h.2)] at hget
      exact Or.inr ⟨rfl, networkAt_congr hget⟩

theorem exists_position (h : key ∈ awsVpcSubnetVarNames) : ∃ p ∈ positions, p.1 = key := by
  revert key
  decide

theorem position_inj {p q : String × Nat} (hp : p ∈ positions) (hq : q ∈ positions) (h : p.2 = q.2) :
    p.1 = q.1 :=
  (by decide : ∀ p ∈ positions, ∀ q ∈ positions, p.2 = q.2 → p.1 = q.1) p hp q hq h

theorem mem_names_of_position {p : String × Nat} (h : p ∈ positions) : p.1 ∈ awsVpcSubnetVarNames := by
  revert p
  decide

theorem conflictFree_of_clear {vars' : Dict String Value} (hlength : vpc.prefixLen ≤ 23)
    (hsupplied : Supplied repr vpc vars) (hclear : Clear repr vpc vars)
    (hfilled : Filled repr hlength vars vars') :
    ConflictFree repr vpc vars vars' where
  within k hk := by
    obtain ⟨p, hp, rfl⟩ := exists_position hk
    rcases hfilled p hp with ⟨-, i, -, hn⟩ | ⟨hgiven, hsame⟩
    · exact ⟨_, hn, Network.subnet_subnetOf _ _ _⟩
    · rw [hsame]
      exact hsupplied.within p.1 hk hgiven
  prefixLen_le k hk hmissing n hn := by
    obtain ⟨p, hp, rfl⟩ := exists_position hk
    rcases hfilled p hp with ⟨-, i, -, hblock⟩ | ⟨hgiven, -⟩
    · cases hblock.symm.trans hn
      exact (targetPrefix_bounds hlength).2
    · cases hmissing.symm.trans hgiven
  disjoint k hk k' hk' hne n n' hn hn' := by
    obtain ⟨p, hp, rfl⟩ := exists_position hk
    obtain ⟨q, hq, rfl⟩ := exists_position hk'
    rcases hfilled p hp with ⟨hmissing, i, hi, hblock⟩ | ⟨hgiven, hsame⟩ <;>
      rcases hfilled q hq with ⟨hmissing', j, hj, hblock'⟩ | ⟨hgiven', hsame'⟩
    · cases hblock.symm.trans hn
      cases hblock'.symm.trans hn'
      refine block_disjoint hlength fun heq ↦ hne (position_inj hp hq ?_)
      rw [← hi, ← hj, heq]
    · cases hblock.symm.trans hn
      refine ((disjoint_block_iff hlength i n').mpr ?_).symm
      rw [hi]
      exact hclear p hp hmissing q.1 hk' n' (hsame' ▸ hn')
    · cases hblock'.symm.trans hn'
      refine (disjoint_block_iff hlength j n).mpr ?_
      rw [hj]
      exact hclear q hq hmissing' p.1 hk n (hsame ▸ hn)
    · exact hsupplied.disjoint p.1 hk q.1 hk' hne n n' (hsame ▸ hn) (hsame' ▸ hn')

theorem clear_of_conflictFree {vars' : Dict String Value} (hlength : vpc.prefixLen ≤ 23)
    (hfree : ConflictFree repr vpc vars vars')
    (hfilled : Filled repr hlength vars vars') :
    Clear repr vpc vars := by
  intro p hp hmissing k hk n hn
  obtain ⟨q, hq, rfl⟩ := exists_position hk
  have hgiven := (networkAt_eq_some hn).1
  have hne : q.1 ≠ p.1 := fun heq ↦ by cases hmissing.symm.trans (heq ▸ hgiven)
  rcases hfilled p hp with ⟨-, i, hi, hblock⟩ | ⟨hgiven', -⟩
  · rcases hfilled q hq with ⟨hmissing', -⟩ | ⟨-, hsame⟩
    · cases hmissing'.symm.trans hgiven
    · rw [← hi]
      exact (disjoint_block_iff hlength i n).mp (hfree.disjoint q.1 hk p.1 (mem_names_of_position hp) hne n _
        (hsame.trans hn) hblock)
  · cases hmissing.symm.trans hgiven'

end

/-- For a VPC with room for the defaults and given subnets that lie inside it and do not overlap: all
subnets are in order afterwards exactly when no given one reaches into a position that is filled in. -/
theorem conflictFree_iff (repr : Value → String) (vpc : Network) (vars : Dict String Value)
    (explicitUserKeys : List String) (text : String) (hvpc : vars.get? "vpc_cidr" = some (.str text))
    (hparse : Network.parse text = some vpc) (hlength : vpc.prefixLen ≤ 23)
    (hsupplied : Supplied repr vpc vars) :
    (∃ vars', normalizeAwsVpcSubnetCidrs repr "infra/aws/vpc" vars explicitUserKeys = .ok vars' ∧
      ConflictFree repr vpc vars vars') ↔ Clear repr vpc vars := by
  obtain ⟨vars', hok, hfilled⟩ := normalize_spec explicitUserKeys hvpc hparse hlength hsupplied
  constructor
  · rintro ⟨vars'', hok', hfree⟩
    cases hok.symm.trans hok'
    exact clear_of_conflictFree hlength hfree hfilled
  · exact fun hclear ↦ ⟨vars', hok, conflictFree_of_clear hlength hsupplied hclear hfilled⟩

def withPublic (cidr : String) : Dict String Value :=
  ⟨[("vpc_cidr", .str "10.0.0.0/16"), ("public_subnet_cidr", .str cidr)], by simp⟩

/-- `10.0.0.0/16`. -/
def vpcNetwork : Network := ⟨167772160, 16, by decide, by decide, by decide⟩

theorem parse_vpcNetwork : Network.parse "10.0.0.0/16" = some vpcNetwork := by
  decide +kernel

section

variable {repr : Value → String} {cidr key : String} {n m : Network}

theorem networkAt_withPublic (h : Network.parse cidr = some n) :
    networkAt repr (withPublic cidr) "public_subnet_cidr" = some n := by
  have hvalue : valueAt (withPublic cidr) "public_subnet_cidr" = .str cidr := rfl
  have hmissing : missing (withPublic cidr) "public_subnet_cidr" = false := by
    have hne : cidr ≠ "" := fun heq ↦ by cases heq ▸ h
    simpa [missing, hvalue, Value.truthy] using hne
  rw [networkAt, hmissing, if_neg nofun, hvalue, ipNetwork_of_parse h]

theorem missing_withPublic (hk : key ∈ awsVpcSubnetVarNames) (hne : key ≠ "public_subnet_cidr") :
    missing (withPublic cidr) key = true := by
  have hvalue : valueAt (withPublic cidr) key = .none := by
    simp only [awsVpcSubnetVarNames, mem_cons, not_mem_nil, or_false] at hk
    rcases hk with rfl | rfl | rfl | rfl | rfl
    · exact absurd rfl hne
    all_goals rfl
  rw [missing, hvalue]
  rfl

theorem eq_of_networkAt_withPublic (h : Network.parse cidr = some n) (hk : key ∈ awsVpcSubnetVarNames)
    (hm : networkAt repr (withPublic cidr) key = some m) : key = "public_subnet_cidr" ∧ m = n := by
  by_cases hkey : key = "public_subnet_cidr"
  · subst hkey
    exact ⟨rfl, Option.some.inj (hm.symm.trans (networkAt_withPublic h))⟩
  · cases (missing_withPublic hk hkey).symm.trans (networkAt_eq_some hm).1

theorem supplied_withPublic (h : Network.parse cidr = some n) (hin : n.subnetOf vpcNetwork) :
    Supplied repr vpcNetwork (withPublic cidr) where
  within k hk hgiven := by
    by_cases hkey : k = "public_subnet_cidr"
    · exact ⟨n, hkey ▸ networkAt_withPublic h, hin⟩
    · cases (missing_withPublic hk hkey).symm.trans hgiven
  disjoint k hk k' hk' hne m m' hm hm' :=
    absurd ((eq_of_networkAt_withPublic h hk hm).1.trans (eq_of_networkAt_withPublic h hk' hm').1.symm) hne

end

/-- `10.0.200.0/24` is at no position. -/
theorem conflictFree_iff_spacious : ∃ vars',
    normalizeAwsVpcSubnetCidrs (fun _ ↦ "") "infra/aws/vpc" (withPublic "10.0.200.0/24") [] = .ok vars' ∧
      ConflictFree (fun _ ↦ "") vpcNetwork (withPublic "10.0.200.0/24") vars' := by
  have hparse : Network.parse "10.0.200.0/24" =
      some ⟨167823360, 24, by decide, by decide, by decide⟩ := by decide +kernel
  refine (conflictFree_iff (fun _ ↦ "") vpcNetwork (withPublic "10.0.200.0/24") [] "10.0.0.0/16" rfl
    parse_vpcNetwork (by decide) (supplied_withPublic hparse (by decide))).mpr ?_
  intro p hp _ k hk n hn
  obtain ⟨-, rfl⟩ := eq_of_networkAt_withPublic hparse hk hn
  right
  revert p
  decide

/-- A public subnet at the position of a private one: both have the same addresses afterwards. -/
theorem derived_subnet_overlaps :
    ¬ ∀ (repr : Value → String) (vpc : Network) (vars : Dict String Value) (explicitUserKeys : List String)
      (text : String), vars.get? "vpc_cidr" = some (.str text) → Network.parse text = some vpc →
      vpc.prefixLen ≤ 23 → Supplied repr vpc vars →
      ∃ vars', normalizeAwsVpcSubnetCidrs repr "infra/aws/vpc" vars explicitUserKeys = .ok vars' ∧
        ConflictFree repr vpc vars vars' := by
  intro h
  have hparse : Network.parse "10.0.10.0/24" =
      some ⟨167774720, 24, by decide, by decide, by decide⟩ := by decide +kernel
  have hsupplied := @supplied_withPublic (fun _ ↦ "") _ _ hparse (by decide)
  obtain ⟨vars', hok, hfree⟩ := h (fun _ ↦ "") vpcNetwork (withPublic "10.0.10.0/24")
    ["public_subnet_cidr"] "10.0.0.0/16" rfl parse_vpcNetwork (by decide) hsupplied
  obtain ⟨vars'', hok', hfilled⟩ := normalize_spec ["public_subnet_cidr"] rfl parse_vpcNetwork (by decide)
    hsupplied
  cases hok.symm.trans hok'
  have hclear := clear_of_conflictFree (by decide) hfree hfilled ("private_external_subnet_a_cidr", 10)
    (by decide) rfl "public_subnet_cidr" (by decide) _ (networkAt_withPublic hparse)
  revert hclear
  decide

end BnkForge.AwsVpc
