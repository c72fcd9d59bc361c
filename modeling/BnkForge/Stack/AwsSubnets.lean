import BnkForge.Lib.Dict
import BnkForge.Lib.PythonValue
import BnkForge.Proxy.As3

/-!
# The subnets of an AWS VPC

`_derive_aws_vpc_subnet_defaults` and `_normalize_aws_vpc_subnet_cidrs`
(`backend/services/stack_deployment_service.py:81–120` and `250–302`): the five subnets of the module
`infra/aws/vpc` that the variables leave out, or put outside the VPC, are taken at fixed positions of the
VPC. What the user gives is not looked at for that, so a subnet that is filled in may overlap with it.
-/

namespace BnkForge.AwsVpc

open Python IPv4

/-! ### `ip_network` -/

/-- What `ip_network` returns; of a network of IPv6 only its version matters. -/
inductive IpNetwork
  | v4 (n : Network)
  | v6

/-- `ip_network` of a number: the network of that one address. -/
def numberNetwork (k : Int) : Option IpNetwork :=
  if 0 ≤ k ∧ k < 2 ^ 32 then (Network.make k.toNat 32).map .v4
  else if 0 ≤ k ∧ k < 2 ^ 128 then some .v6
  else none

/-- `IPv6Network` takes the text. -/
def isIpv6Network (text : String) : Bool :=
  match text.toList.splitOn '/' with
  | [address] => Proxy.isIpv6 address
  | [address, length] => Proxy.isIpv6 address && (Network.lengthText 128 length).isSome
  | _ => false

section

-- `str` of floats, lists and dicts
variable (repr : Value → String)

/-- `ip_network(value, strict=False)`, `none` where it raises `ValueError`. -/
def ipNetwork (value : Value) : Option IpNetwork :=
  match value with
  | .bool b => numberNetwork (if b then 1 else 0)
  | .int k => numberNetwork k
  | value =>
    match Network.parse (value.toText repr) with
    | some n => some (.v4 n)
    | none => if isIpv6Network (value.toText repr) then some .v6 else none

/-! ### The defaults and the variables -/

inductive NormalizeError
  | notANetwork (value : Value)
  | valueError (message : String)
  | typeError

/-- `AWS_VPC_SUBNET_VAR_NAMES`. -/
def awsVpcSubnetVarNames : List String :=
  ["public_subnet_cidr", "private_external_subnet_a_cidr", "private_external_subnet_b_cidr",
    "private_internal_subnet_a_cidr", "private_internal_subnet_b_cidr"]

/-- The length of the masks of the defaults. -/
def targetPrefix (network : Network) : Nat := min (max 24 (network.prefixLen + 5)) 28

/-- `str(subnet_list[i])`. -/
def textAt (subnetList : List Network) (i : Nat) : String := (subnetList[i]?.map Network.text).getD ""

/-- `_derive_aws_vpc_subnet_defaults`, with the network that the text of the VPC gives. -/
def deriveAwsVpcSubnetDefaults (vpcCidr : Value) (network : Network) :
    Except NormalizeError (List (String × String)) :=
  if 23 < network.prefixLen then
    .error (.valueError ("vpc_cidr '" ++ vpcCidr.toText repr ++ "' is too narrow for default 5-subnet layout. " ++
      "Use a broader CIDR (recommended /16 to /23) or provide all subnet CIDRs explicitly."))
  else
    match network.subnets (targetPrefix network) with
    | .error message => .error (.valueError message)
    | .ok subnetList =>
      if subnetList.length ≤ 21 then
        .error (.valueError ("vpc_cidr '" ++ vpcCidr.toText repr ++
          "' cannot derive required subnet layout (only " ++ toString subnetList.length ++
          " subnets at /" ++ toString (targetPrefix network) ++ ")."))
      else
        .ok
          [("public_subnet_cidr", textAt subnetList 1),
            ("private_external_subnet_a_cidr", textAt subnetList 10),
            ("private_external_subnet_b_cidr", textAt subnetList 11),
            ("private_internal_subnet_a_cidr", textAt subnetList 20),
            ("private_internal_subnet_b_cidr", textAt subnetList 21)]

/-- `final_vars.get(key)`. -/
def valueAt (vars : Dict String Value) (key : String) : Value := (vars.get? key).getD .none

/-- `subnet_of` the VPC, where a text that is no network is not within it. -/
def inVpc (vpc : Network) (value : Value) : Except NormalizeError Bool :=
  match ipNetwork repr value with
  | none => .ok false
  | some .v6 => .error .typeError
  | some (.v4 n) => .ok (decide (n.subnetOf vpc))

/-- One round of the loop over the names. -/
def normalizeKey (vpcCidr : Value) (vpc : Network) (derived : List (String × String))
    (explicitUserKeys : List String) (vars : Dict String Value) (key : String) :
    Except NormalizeError (Dict String Value) :=
  let default := Value.str ((derived.lookup key).getD "")
  let current := valueAt vars key
  if !current.truthy then .ok (vars.set key default)
  else
    match inVpc repr vpc current with
    | .error e => .error e
    | .ok true => .ok vars
    | .ok false =>
      if key ∈ explicitUserKeys then
        .error (.valueError ("Explicit subnet '" ++ key ++ "=" ++ current.toText repr ++
          "' is not within vpc_cidr '" ++ vpcCidr.toText repr ++ "'."))
      else .ok (vars.set key default)

/-- The loop over the names. -/
def normalizeKeys (vpcCidr : Value) (vpc : Network) (derived : List (String × String))
    (explicitUserKeys : List String) (vars : Dict String Value) :
    List String → Except NormalizeError (Dict String Value)
  | [] => .ok vars
  | key :: keys =>
    match normalizeKey repr vpcCidr vpc derived explicitUserKeys vars key with
    | .error e => .error e
    | .ok vars => normalizeKeys vpcCidr vpc derived explicitUserKeys vars keys

/-- `_normalize_aws_vpc_subnet_cidrs`. -/
def normalizeAwsVpcSubnetCidrs (modulePath : String) (vars : Dict String Value)
    (explicitUserKeys : List String) : Except NormalizeError (Dict String Value) :=
  if modulePath ≠ "infra/aws/vpc" then .ok vars
  else
    let vpcCidr := valueAt vars "vpc_cidr"
    if !vpcCidr.truthy then .ok vars
    else
      match ipNetwork repr vpcCidr with
      | none => .error (.notANetwork vpcCidr)
      -- raised by the derivation, which comes before the loop
      | some .v6 => .error (.valueError "vpc_cidr must be an IPv4 CIDR")
      | some (.v4 vpc) =>
        match deriveAwsVpcSubnetDefaults repr vpcCidr vpc with
        | .error e => .error e
        | .ok derived =>
          normalizeKeys repr vpcCidr vpc derived explicitUserKeys vars awsVpcSubnetVarNames

end

end BnkForge.AwsVpc
