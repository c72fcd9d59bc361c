import BnkForge.Stack.SubnetConflicts

/-!
# When the normalization of the subnets fails

`_normalize_aws_vpc_subnet_cidrs` must fail where the VPC is no network of IPv4, where a subnet that the user
supplied is malformed or outside the VPC, and where a subnet has to be derived from a VPC that is too narrow.
The derivation is made first and for every VPC, so a narrow one is refused even where it is not needed; and a
subnet of IPv6 raises the `TypeError` of `subnet_of`, which the loop does not catch.
-/

namespace BnkForge.AwsVpc

open Python IPv4 List

section

variable (repr : Value → String) (vpc : Network) (vpcCidr : String) (explicitUserKeys : List String)
  (vars : Dict String Value)

/-! ### What must fail -/

/-- The subnet that the variables give is a network of IPv4 inside the VPC. -/
def Inside (key : String) : Prop := ∃ n, networkAt repr vars key = some n ∧ n.subnetOf vpc

def Refused (key : String) : Prop :=
  key ∈ explicitUserKeys ∧ missing vars key = false ∧ ¬ Inside repr vpc vars key

def NeedsDefault (key : String) : Prop :=
  missing vars key = true ∨ key ∉ explicitUserKeys ∧ ¬ Inside repr vpc vars key

/-- A subnet of IPv6. -/
def OfIpv6 (key : String) : Prop :=
  missing vars key = false ∧ ipNetwork repr (valueAt vars key) = some .v6

/-- The variables that cannot be normalized, by what the normalization is for. -/
def MustFail : Prop :=
  match ipNetwork repr (.str vpcCidr) with
  | some (.v4 vpc) =>
    (∃ key ∈ awsVpcSubnetVarNames, Refused repr vpc explicitUserKeys vars key) ∨
      23 < vpc.prefixLen ∧ ∃ key ∈ awsVpcSubnetVarNames, NeedsDefault repr vpc explicitUserKeys vars key
  | _ => True

/-- Nothing but a `ValueError` is raised, and only where one has to be. -/
structure FailsOnlyWhenItMust : Prop where
  valueError : normalizeAwsVpcSubnetCidrs repr "infra/aws/vpc" vars explicitUserKeys ≠ .error .typeError
  raises_iff : (∃ e, normalizeAwsVpcSubnetCidrs repr "infra/aws/vpc" vars explicitUserKeys = .error e) ↔
    MustFail repr vpcCidr explicitUserKeys vars

/-- The text of the VPC is not empty, which counts as none. A VPC that is narrow leaves a subnet to derive or
to refuse, and in a broader one a subnet is refused before any of IPv6. -/
def Decided : Prop :=
  vpcCidr ≠ "" ∧
    ∀ vpc, ipNetwork repr (.str vpcCidr) = some (.v4 vpc) →
      (23 < vpc.prefixLen → ∃ key ∈ awsVpcSubnetVarNames, ¬ Inside repr vpc vars key) ∧
      (vpc.prefixLen ≤ 23 → ∀ before key after, awsVpcSubnetVarNames = before ++ key :: after →
        OfIpv6 repr vars key → ∃ k ∈ before, Refused repr vpc explicitUserKeys vars k)

/-! ### What the loop raises -/

def fault (vpcCidr : Value) (key : String) : Option NormalizeError :=
  if missing vars key then none
  else
    match inVpc repr vpc (valueAt vars key) with
    | .error e => some e
    | .ok true => none
    | .ok false =>
      if key ∈ explicitUserKeys then
        some (.valueError ("Explicit subnet '" ++ key ++ "=" ++ (valueAt vars key).toText repr ++
          "' is not within vpc_cidr '" ++ vpcCidr.toText repr ++ "'."))
      else none

end

section

variable {repr : Value → String} {vpc : Network} {vars : Dict String Value} {vpcCidr : Value}
  {derived : List (String × String)} {explicitUserKeys keys : List String} {key : String}

theorem normalizeKey_spec (vpcCidr : Value) (derived : List (String × String)) (key : String) :
    (∃ e, fault repr vpc explicitUserKeys vars vpcCidr key = some e ∧
      normalizeKey repr vpcCidr vpc derived explicitUserKeys vars key = .error e) ∨
    fault repr vpc explicitUserKeys vars vpcCidr key = none ∧
      ∃ vars', normalizeKey repr vpcCidr vpc derived explicitUserKeys vars key = .ok vars' ∧
        ∀ k, k ≠ key → valueAt vars' k = valueAt vars k := by
  have hset : ∀ v, ∀ k, k ≠ key → valueAt (vars.set key v) k = valueAt vars k :=
    fun _ _ hk ↦ valueAt_set_of_ne hk
  unfold fault normalizeKey
  cases hmissing : missing vars key with
  | true =>
    rw [missing] at hmissing
    right
    simpa [hmissing] using hset _
  | false =>
    rw [missing] at hmissing
    cases hin : inVpc repr vpc (valueAt vars key) with
    | error e => simp [hmissing, hin]
    | ok within =>
      cases within with
      | true => simp [hmissing, hin]
      | false =>
        by_cases hexplicit : key ∈ explicitUserKeys
        · simp [hmissing, hin, hexplicit]
        · right
          simpa [hmissing, hin, hexplicit] using hset _

theorem normalizeKeys_error_iff (hkeys : keys.Nodup) {e : NormalizeError} :
    normalizeKeys repr vpcCidr vpc derived explicitUserKeys vars keys = .error e ↔
      keys.findSome? (fault repr vpc explicitUserKeys vars vpcCidr) = some e := by
  induction keys generalizing vars with
  | nil => simp [normalizeKeys]
  | cons key keys ih =>
    obtain ⟨hkey, hkeys⟩ := nodup_cons.mp hkeys
    rw [normalizeKeys, findSome?_cons]
    rcases normalizeKey_spec vpcCidr derived key with ⟨e', hfault, hround⟩ | ⟨hfault, vars', hround, hsame⟩
    · rw [hfault, hround]
      simp
    · rw [hfault, hround]
      refine (ih hkeys).trans ?_
      have hcongr : ∀ k ∈ keys, fault repr vpc explicitUserKeys vars' vpcCidr k =
          fault repr vpc explicitUserKeys vars vpcCidr k := fun k hk ↦ by
        have hvalue := hsame k fun heq ↦ hkey (heq ▸ hk)
        rw [fault, fault, missing, missing, hvalue]
      rw [← head?_filterMap, ← head?_filterMap, filterMap_congr hcongr]

theorem inVpc_cases (hgiven : missing vars key = false) :
    (OfIpv6 repr vars key ∧ ¬ Inside repr vpc vars key ∧ inVpc repr vpc (valueAt vars key) = .error .typeError) ∨
    (¬ OfIpv6 repr vars key ∧ Inside repr vpc vars key ∧ inVpc repr vpc (valueAt vars key) = .ok true) ∨
    (¬ OfIpv6 repr vars key ∧ ¬ Inside repr vpc vars key ∧ inVpc repr vpc (valueAt vars key) = .ok false) := by
  unfold OfIpv6 Inside networkAt inVpc
  rw [hgiven]
  match hnetwork : ipNetwork repr (valueAt vars key) with
  | none => simp
  | some .v6 => simp
  | some (.v4 n) =>
    by_cases hin : n.subnetOf vpc <;> simp [hin]

theorem not_inside_of_missing (h : missing vars key = true) : ¬ Inside repr vpc vars key := by
  rintro ⟨n, hn, -⟩
  cases h.symm.trans (networkAt_eq_some hn).1

theorem fault_eq_typeError_iff :
    fault repr vpc explicitUserKeys vars vpcCidr key = some .typeError ↔ OfIpv6 repr vars key := by
  cases hgiven : missing vars key with
  | true => simp [fault, OfIpv6, hgiven]
  | false =>
    rcases @inVpc_cases repr vpc vars key hgiven with ⟨hv6, -, hin⟩ | ⟨hv6, -, hin⟩ | ⟨hv6, -, hin⟩
    · simp [fault, hgiven, hin, hv6]
    · simp [fault, hgiven, hin, hv6]
    · by_cases hexplicit : key ∈ explicitUserKeys <;> simp [fault, hgiven, hin, hv6, hexplicit]

theorem fault_ne_none_iff :
    fault repr vpc explicitUserKeys vars vpcCidr key ≠ none ↔
      OfIpv6 repr vars key ∨ Refused repr vpc explicitUserKeys vars key := by
  cases hgiven : missing vars key with
  | true => simp [fault, OfIpv6, Refused, hgiven]
  | false =>
    rcases @inVpc_cases repr vpc vars key hgiven with ⟨hv6, -, hin⟩ | ⟨hv6, hi, hin⟩ | ⟨hv6, hi, hin⟩
    · simp [fault, hgiven, hin, hv6]
    · simp [fault, Refused, hgiven, hin, hv6, hi]
    · by_cases hexplicit : key ∈ explicitUserKeys <;> simp [fault, Refused, hgiven, hin, hv6, hi, hexplicit]

theorem not_inside_iff : ¬ Inside repr vpc vars key ↔
    Refused repr vpc explicitUserKeys vars key ∨ NeedsDefault repr vpc explicitUserKeys vars key := by
  constructor
  · intro hout
    cases hgiven : missing vars key with
    | true => exact .inr (.inl hgiven)
    | false =>
      by_cases hexplicit : key ∈ explicitUserKeys
      · exact .inl ⟨hexplicit, hgiven, hout⟩
      · exact .inr (.inr ⟨hexplicit, hout⟩)
  · rintro (h | h | h)
    · exact h.2.2
    · exact not_inside_of_missing h
    · exact h.2

/-! ### What is raised -/

private theorem notANetwork_ne_typeError {v : Value} : NormalizeError.notANetwork v ≠ .typeError := by simp

private theorem valueError_ne_typeError {m : String} : NormalizeError.valueError m ≠ .typeError := by simp

theorem normalize_of_not_ipv4 (htruthy : (valueAt vars "vpc_cidr").truthy = true)
    (h : ∀ vpc, ipNetwork repr (valueAt vars "vpc_cidr") ≠ some (.v4 vpc)) :
    ∃ e, e ≠ .typeError ∧
      normalizeAwsVpcSubnetCidrs repr "infra/aws/vpc" vars explicitUserKeys = .error e := by
  rw [normalizeAwsVpcSubnetCidrs, if_neg (not_not.mpr rfl)]
  cases hnetwork : ipNetwork repr (valueAt vars "vpc_cidr") with
  | none => exact ⟨.notANetwork (valueAt vars "vpc_cidr"), notANetwork_ne_typeError, by simp [htruthy, hnetwork]⟩
  | some network =>
    cases network with
    | v4 vpc => exact absurd hnetwork (h vpc)
    | v6 => exact ⟨.valueError _, valueError_ne_typeError, by simp [htruthy, hnetwork]; rfl⟩

theorem normalize_of_narrow (htruthy : (valueAt vars "vpc_cidr").truthy = true)
    (hvpc : ipNetwork repr (valueAt vars "vpc_cidr") = some (.v4 vpc))
    (hnarrow : 23 < vpc.prefixLen) : ∃ e, e ≠ .typeError ∧
      normalizeAwsVpcSubnetCidrs repr "infra/aws/vpc" vars explicitUserKeys = .error e := by
  rw [normalizeAwsVpcSubnetCidrs, if_neg (not_not.mpr rfl)]
  exact ⟨.valueError _, valueError_ne_typeError, by simp [htruthy, hvpc, deriveAwsVpcSubnetDefaults, hnarrow]; rfl⟩

theorem normalize_of_broad (htruthy : (valueAt vars "vpc_cidr").truthy = true)
    (hvpc : ipNetwork repr (valueAt vars "vpc_cidr") = some (.v4 vpc))
    (hbroad : vpc.prefixLen ≤ 23) (e : NormalizeError) :
    normalizeAwsVpcSubnetCidrs repr "infra/aws/vpc" vars explicitUserKeys = .error e ↔
      awsVpcSubnetVarNames.findSome?
        (fault repr vpc explicitUserKeys vars (valueAt vars "vpc_cidr")) = some e := by
  obtain ⟨derived, hderived, -⟩ := @derive_eq_ok repr vpc (valueAt vars "vpc_cidr") hbroad
  rw [normalizeAwsVpcSubnetCidrs, if_neg (not_not.mpr rfl)]
  simp only [htruthy, Bool.not_true, Bool.false_eq_true, if_false, hvpc, hderived]
  exact normalizeKeys_error_iff (by decide)

/-- A subnet of IPv6 before which none is refused is reached. -/
theorem findSome?_fault_of_ipv6 {before after : List String} (hv6 : OfIpv6 repr vars key)
    (hbefore : ∀ k ∈ before, ¬ Refused repr vpc explicitUserKeys vars k) :
    (before ++ key :: after).findSome? (fault repr vpc explicitUserKeys vars vpcCidr) = some .typeError := by
  induction before with
  | nil => rw [nil_append, findSome?_cons, fault_eq_typeError_iff.mpr hv6]
  | cons k before ih =>
    have ih := ih fun k' hk' ↦ hbefore k' (mem_cons_of_mem _ hk')
    rw [cons_append, findSome?_cons]
    match hfault : fault repr vpc explicitUserKeys vars vpcCidr k with
    | none => exact ih
    | some e =>
      rcases fault_ne_none_iff.mp (Option.ne_none_iff_exists'.mpr ⟨e, hfault⟩) with hk | hk
      · exact hfault.symm.trans (fault_eq_typeError_iff.mpr hk)
      · exact absurd hk (hbefore k mem_cons_self)

/-- A subnet of IPv6 before which none is refused raises the `TypeError`. -/
theorem findSome?_fault_eq_typeError_iff (names : List String) :
    names.findSome? (fault repr vpc explicitUserKeys vars vpcCidr) = some .typeError ↔
      ∃ before key after, names = before ++ key :: after ∧ OfIpv6 repr vars key ∧
        ∀ k ∈ before, ¬ Refused repr vpc explicitUserKeys vars k := by
  constructor
  · intro h
    obtain ⟨before, key, after, hsplit, hfault, hbefore⟩ := findSome?_eq_some_iff.mp h
    exact ⟨before, key, after, hsplit, fault_eq_typeError_iff.mp hfault,
      fun k hk hrefused ↦ fault_ne_none_iff.mpr (.inr hrefused) (hbefore k hk)⟩
  · rintro ⟨before, key, after, rfl, hv6, hbefore⟩
    exact findSome?_fault_of_ipv6 hv6 hbefore

/-- Without a `TypeError` the loop raises where a subnet is refused. -/
theorem findSome?_fault_iff_refused (names : List String)
    (h : names.findSome? (fault repr vpc explicitUserKeys vars vpcCidr) ≠ some .typeError) :
    (∃ e, names.findSome? (fault repr vpc explicitUserKeys vars vpcCidr) = some e) ↔
      ∃ key ∈ names, Refused repr vpc explicitUserKeys vars key := by
  constructor
  · rintro ⟨e, he⟩
    obtain ⟨before, key, after, rfl, hfault, -⟩ := findSome?_eq_some_iff.mp he
    rcases fault_ne_none_iff.mp (Option.ne_none_iff_exists'.mpr ⟨e, hfault⟩) with hkey | hkey
    · have htype := hfault.symm.trans (fault_eq_typeError_iff.mpr hkey)
      exact absurd (he.trans htype) h
    · exact ⟨key, mem_append_right _ mem_cons_self, hkey⟩
  · rintro ⟨key, hmem, hkey⟩
    refine Option.ne_none_iff_exists'.mp fun hnone ↦ ?_
    have hfault : fault repr vpc explicitUserKeys vars vpcCidr key ≠ none := fault_ne_none_iff.mpr (.inr hkey)
    exact hfault (findSome?_eq_none_iff.mp hnone key hmem)

theorem narrow_iff {cidr : String} (hempty : cidr ≠ "") (htruthy : (valueAt vars "vpc_cidr").truthy = true)
    (hvalue : valueAt vars "vpc_cidr" = .str cidr) (hvpc : ipNetwork repr (.str cidr) = some (.v4 vpc))
    (hnarrow : 23 < vpc.prefixLen) :
    FailsOnlyWhenItMust repr cidr explicitUserKeys vars ↔ Decided repr cidr explicitUserKeys vars := by
  obtain ⟨e, htype, he⟩ := @normalize_of_narrow repr vpc vars explicitUserKeys htruthy (hvalue ▸ hvpc) hnarrow
  have hmust : MustFail repr cidr explicitUserKeys vars ↔
      ∃ key ∈ awsVpcSubnetVarNames, ¬ Inside repr vpc vars key := by
    rw [MustFail, hvpc]
    simp only [hnarrow, true_and, @not_inside_iff repr vpc vars explicitUserKeys, and_or_left, exists_or]
  have hdecided : Decided repr cidr explicitUserKeys vars ↔
      ∃ key ∈ awsVpcSubnetVarNames, ¬ Inside repr vpc vars key := by
    refine ⟨fun h ↦ (h.2 vpc hvpc).1 hnarrow, fun h ↦ ⟨hempty, fun vpc' hvpc' ↦ ?_⟩⟩
    cases hvpc.symm.trans hvpc'
    exact ⟨fun _ ↦ h, fun hbroad ↦ absurd hbroad hnarrow.not_ge⟩
  rw [hdecided, ← hmust]
  exact ⟨fun h ↦ h.raises_iff.mp ⟨e, he⟩,
    fun h ↦ ⟨fun hraised ↦ htype (Except.error.inj (he.symm.trans hraised)), fun _ ↦ h, fun _ ↦ ⟨e, he⟩⟩⟩

/-- A broad VPC leaves it to the loop, which is right where no subnet of IPv6 raises first. -/
theorem broad_iff {cidr : String} (hempty : cidr ≠ "") (htruthy : (valueAt vars "vpc_cidr").truthy = true)
    (hvalue : valueAt vars "vpc_cidr" = .str cidr) (hvpc : ipNetwork repr (.str cidr) = some (.v4 vpc))
    (hbroad : vpc.prefixLen ≤ 23) :
    FailsOnlyWhenItMust repr cidr explicitUserKeys vars ↔ Decided repr cidr explicitUserKeys vars := by
  have hraised := @normalize_of_broad repr vpc vars explicitUserKeys htruthy (hvalue ▸ hvpc) hbroad
  have hmust : MustFail repr cidr explicitUserKeys vars ↔
      ∃ key ∈ awsVpcSubnetVarNames, Refused repr vpc explicitUserKeys vars key := by
    rw [MustFail, hvpc]
    simp only [hbroad.not_gt, false_and, or_false]
  have hdecided : Decided repr cidr explicitUserKeys vars ↔
      awsVpcSubnetVarNames.findSome?
        (fault repr vpc explicitUserKeys vars (valueAt vars "vpc_cidr")) ≠ some .typeError := by
    rw [Ne, findSome?_fault_eq_typeError_iff]
    constructor
    · rintro ⟨-, h⟩ ⟨before, key, after, hsplit, hv6, hbefore⟩
      obtain ⟨k, hk, hrefused⟩ := (h vpc hvpc).2 hbroad before key after hsplit hv6
      exact hbefore k hk hrefused
    · refine fun h ↦ ⟨hempty, fun vpc' hvpc' ↦ ?_⟩
      cases hvpc.symm.trans hvpc'
      refine ⟨fun hnarrow ↦ absurd hbroad hnarrow.not_ge, fun _ before key after hsplit hv6 ↦ ?_⟩
      by_contra hnone
      exact h ⟨before, key, after, hsplit, hv6, fun k hk hrefused ↦ hnone ⟨k, hk, hrefused⟩⟩
  rw [hdecided]
  refine ⟨fun h hfault ↦ h.valueError ((hraised _).mpr hfault), fun h ↦
    ⟨fun hfault ↦ h ((hraised _).mp hfault), ?_⟩⟩
  rw [hmust, ← findSome?_fault_iff_refused awsVpcSubnetVarNames h]
  exact exists_congr hraised

end

section

variable (repr : Value → String) (explicitUserKeys : List String) (vars : Dict String Value)

/-- The normalization raises a `ValueError` where it must and nothing else, exactly where a VPC is given and
neither the width that only the derivation needs nor a subnet of IPv6 decides. -/
theorem failsOnlyWhenItMust_iff (vpcCidr : String) (hvpc : vars.get? "vpc_cidr" = some (.str vpcCidr)) :
    FailsOnlyWhenItMust repr vpcCidr explicitUserKeys vars ↔ Decided repr vpcCidr explicitUserKeys vars := by
  have hvalue : valueAt vars "vpc_cidr" = .str vpcCidr := by rw [valueAt, hvpc, Option.getD_some]
  by_cases hempty : vpcCidr = ""
  · subst hempty
    refine iff_of_false (fun h ↦ ?_) fun h ↦ h.1 rfl
    obtain ⟨e, he⟩ := h.raises_iff.mpr trivial
    rw [normalizeAwsVpcSubnetCidrs, if_neg (not_not.mpr rfl), hvalue] at he
    cases he
  have htruthy : (valueAt vars "vpc_cidr").truthy = true := by simpa [hvalue, Value.truthy] using hempty
  by_cases hv4 : ∃ vpc, ipNetwork repr (.str vpcCidr) = some (.v4 vpc)
  · obtain ⟨vpc, hnetwork⟩ := hv4
    rcases le_or_gt vpc.prefixLen 23 with hbroad | hnarrow
    · exact broad_iff hempty htruthy hvalue hnetwork hbroad
    · exact narrow_iff hempty htruthy hvalue hnetwork hnarrow
  · have hnot : ∀ vpc, ipNetwork repr (.str vpcCidr) ≠ some (.v4 vpc) := fun vpc h ↦ hv4 ⟨vpc, h⟩
    obtain ⟨e, htype, he⟩ := @normalize_of_not_ipv4 repr vars explicitUserKeys htruthy (hvalue ▸ hnot)
    refine iff_of_true ⟨fun h ↦ htype (Except.error.inj (he.symm.trans h)), fun _ ↦ ?_, fun _ ↦ ⟨e, he⟩⟩
      ⟨hempty, fun vpc h ↦ absurd h (hnot vpc)⟩
    unfold MustFail
    split
    · exact absurd ‹_› (hnot _)
    · trivial

end

/-- A broad VPC with a public subnet outside the positions of the defaults. -/
theorem failsOnlyWhenItMust_spacious :
    FailsOnlyWhenItMust (fun _ ↦ "") "10.0.0.0/16" [] (withPublic "10.0.200.0/24") := by
  have hpublic : Network.parse "10.0.200.0/24" =
      some ⟨167823360, 24, by decide, by decide, by decide⟩ := by decide +kernel
  refine (failsOnlyWhenItMust_iff (fun _ ↦ "") [] _ "10.0.0.0/16" rfl).mpr ⟨by decide, fun vpc hvpc ↦ ?_⟩
  cases (ipNetwork_of_parse parse_vpcNetwork).symm.trans hvpc
  refine ⟨fun hnarrow ↦ absurd hnarrow (by decide), fun _ before key after hsplit hv6 ↦ ?_⟩
  by_cases hkey : key = "public_subnet_cidr"
  · subst hkey
    have hnetwork := (networkAt_eq_some (@networkAt_withPublic (fun _ ↦ "") _ _ hpublic)).2
    cases hnetwork.symm.trans hv6.2
  · have hmem : key ∈ awsVpcSubnetVarNames := hsplit ▸ List.mem_append_right _ List.mem_cons_self
    cases (missing_withPublic hmem hkey).symm.trans hv6.1

def completeLayout : Dict String Value :=
  ⟨[("vpc_cidr", .str "10.0.0.0/24"), ("public_subnet_cidr", .str "10.0.0.0/28"),
    ("private_external_subnet_a_cidr", .str "10.0.0.16/28"),
    ("private_external_subnet_b_cidr", .str "10.0.0.32/28"),
    ("private_internal_subnet_a_cidr", .str "10.0.0.48/28"),
    ("private_internal_subnet_b_cidr", .str "10.0.0.64/28")], by simp⟩

/-- A layout that is complete is refused, and a default of IPv6 raises the `TypeError`. -/
theorem complete_layout_refused :
    ¬ FailsOnlyWhenItMust (fun _ ↦ "") "10.0.0.0/24" awsVpcSubnetVarNames completeLayout ∧
      ¬ FailsOnlyWhenItMust (fun _ ↦ "") "10.0.0.0/16" [] (withPublic "fd00::/64") := by
  constructor
  · have hvpc : Network.parse "10.0.0.0/24" = some ⟨167772160, 24, by decide, by decide, by decide⟩ := by
      decide +kernel
    rw [narrow_iff (by decide) rfl rfl (ipNetwork_of_parse hvpc) (by decide)]
    intro h
    obtain ⟨key, hkey, hout⟩ := (h.2 _ (ipNetwork_of_parse hvpc)).1 (by decide)
    refine hout ?_
    simp only [awsVpcSubnetVarNames, List.mem_cons, List.not_mem_nil, or_false] at hkey
    rcases hkey with rfl | rfl | rfl | rfl | rfl
    · exact ⟨⟨167772160, 28, by decide, by decide, by decide⟩, by decide +kernel, by decide⟩
    · exact ⟨⟨167772176, 28, by decide, by decide, by decide⟩, by decide +kernel, by decide⟩
    · exact ⟨⟨167772192, 28, by decide, by decide, by decide⟩, by decide +kernel, by decide⟩
    · exact ⟨⟨167772208, 28, by decide, by decide, by decide⟩, by decide +kernel, by decide⟩
    · exact ⟨⟨167772224, 28, by decide, by decide, by decide⟩, by decide +kernel, by decide⟩
  · rw [broad_iff (by decide) rfl rfl (ipNetwork_of_parse parse_vpcNetwork) (by decide)]
    intro h
    have hparse : Network.parse "fd00::/64" = none := by decide +kernel
    have hv6 : isIpv6Network "fd00::/64" = true := by decide +kernel
    have hnetwork : ipNetwork (fun _ ↦ "") (.str "fd00::/64") = some .v6 := by
      simp only [ipNetwork, Value.toText, hparse, hv6, if_true]
    obtain ⟨k, hk, -⟩ := (h.2 _ (ipNetwork_of_parse parse_vpcNetwork)).2 (by decide) [] "public_subnet_cidr" _ rfl
      ⟨rfl, hnetwork⟩
    exact List.not_mem_nil hk

end BnkForge.AwsVpc
