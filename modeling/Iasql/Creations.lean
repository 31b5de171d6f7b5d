import Iasql.LoadBalancerCreate
import Iasql.VpcCreate

namespace Iasql.Creations

open Program Prog

section Honour

variable {ec2 : Vpcs.Service} {elb : LoadBalancers.Service}

theorem vpcs_honoured_iff {es : List Vpcs.Vpc} {s t : Option Nat → Vpcs.State} {out : List Vpcs.Vpc}
    (hids : (es.map (·.id)).Nodup) (h : Vpcs.create ec2 es s = (.returned out, t)) :
    ∀ e ∈ es, Vpcs.Honoured e (t e.id) ↔ Vpcs.Kept ec2 e := by
  intro e he
  obtain ⟨o, hone⟩ := (gather_turn hids h).1 e he
  exact Vpcs.honoured_iff hone

theorem loadBalancers_honoured_iff {es : List LoadBalancers.LoadBalancer}
    {s t : Option Nat → LoadBalancers.State} {out : List LoadBalancers.LoadBalancer}
    (hids : (es.map (·.id)).Nodup) (h : LoadBalancers.create elb es s = (.returned out, t)) :
    ∀ e ∈ es, LoadBalancers.Honoured e (t e.id) ↔ LoadBalancers.Kept elb e := by
  intro e he
  obtain ⟨o, hone⟩ := (gather_turn hids h).1 e he
  exact LoadBalancers.honoured_iff hone

-- every column that is set is honoured, in AWS and in the row, exactly where it is kept
theorem creation_honours_iff (ec2 : Vpcs.Service) (elb : LoadBalancers.Service)
    (vpcs vpcsOut : List Vpcs.Vpc) (lbs lbsOut : List LoadBalancers.LoadBalancer) (s t : Option Nat → Vpcs.State)
    (u v : Option Nat → LoadBalancers.State) (hvpcs : (vpcs.map (·.id)).Nodup) (hlbs : (lbs.map (·.id)).Nodup)
    (hvpc : Vpcs.create ec2 vpcs s = (.returned vpcsOut, t))
    (hlb : LoadBalancers.create elb lbs u = (.returned lbsOut, v)) :
    (∀ e ∈ vpcs, Vpcs.Honoured e (t e.id) ↔ Vpcs.Kept ec2 e) ∧
      ∀ e ∈ lbs, LoadBalancers.Honoured e (v e.id) ↔ LoadBalancers.Kept elb e :=
  ⟨vpcs_honoured_iff hvpcs hvpc, loadBalancers_honoured_iff hlbs hlb⟩

end Honour

section Requests

def unavailable : Thrown := .error "ServiceUnavailable"

-- a block that is canonical stays, and the id of the only VPC is the same each time
def madeVpc (input : Vpcs.CreateVpc) : Vpcs.AwsVpc where
  vpcId := some "vpc-1"
  cidrBlock := some input.cidrBlock
  tags := input.tags.getD ∅

def ec2 : Vpcs.Service where
  canonical := id
  createVpc _ input := if input.cidrBlock = "" then .error unavailable else .ok (some (madeVpc input))
  created := by
    intro _ input res h
    split at h
    · cases h
    · next hne =>
      cases h
      exact ⟨_, rfl, rfl, rfl, hne, rfl, rfl⟩
  modifyVpcAttribute _ _ _ _ := .ok ()
  associateDhcpOptions _ _ _ := .ok ()
  dhcpOptions _ _ := none

def zone (id : String) : String := if id = "subnet-1" then "us-east-1a" else "us-east-1b"

def defaultSubnet (id : String) : LoadBalancers.Subnet where
  availabilityZone := ⟨zone id⟩
  vpc := { vpcId := some "vpc-0", isDefault := true, region := "us-east-1" }
  subnetId := some id
  region := "us-east-1"

def subnets : List LoadBalancers.Subnet := [defaultSubnet "subnet-1", defaultSubnet "subnet-2"]

def groupsOf (input : LoadBalancers.CreateLoadBalancer) : List String :=
  if input.type = .application then
    if input.securityGroups.getD [] = [] then ["sg-0"] else input.securityGroups.getD []
  else []

def madeLoadBalancer (input : LoadBalancers.CreateLoadBalancer) : LoadBalancers.AwsLoadBalancer where
  loadBalancerName := some input.name
  loadBalancerArn := some "arn:aws:elasticloadbalancing:us-east-1:1:loadbalancer/app/web/1"
  scheme := some input.scheme
  type := some input.type
  securityGroups := some (groupsOf input)
  ipAddressType := some input.ipAddressType
  vpcId := some "vpc-0"
  availabilityZones := some (input.subnets.map fun id => ⟨some (zone id), some id⟩)

theorem guarded_groupsOf (input : LoadBalancers.CreateLoadBalancer) :
    LoadBalancers.Guarded input (groupsOf input) where
  named htype ids hids hne id := by
    rw [groupsOf, if_pos htype, hids, Option.getD_some, if_neg hne]
  defaulted htype hempty := by
    rw [groupsOf, if_pos htype, if_pos hempty]
    exact List.cons_ne_nil _ _
  unguarded htype := if_neg htype

theorem created_madeLoadBalancer {input : LoadBalancers.CreateLoadBalancer} (hname : input.name ≠ "")
    (hsubnets : input.subnets ≠ []) : LoadBalancers.Created zone input (madeLoadBalancer input) where
  name := by simpa [madeLoadBalancer, Aws.truthy] using hname
  arn := rfl
  scheme := rfl
  type := rfl
  ipAddressType := rfl
  vpcId := rfl
  zones az haz := by
    obtain ⟨id, -, rfl⟩ := List.mem_map.mp haz
    exact ⟨id, rfl⟩
  subnets id := by
    constructor
    · exact fun hid => ⟨_, List.mem_map_of_mem hid, rfl⟩
    · rintro ⟨az, haz, hid⟩
      obtain ⟨n, hn, rfl⟩ := List.mem_map.mp haz
      cases hid
      exact hn
  nonempty := hsubnets
  securityGroups := guarded_groupsOf input

def elb : LoadBalancers.Service where
  zone
  subnets := .ok subnets
  zoned := by
    rintro all ⟨⟩ s hs
    simp only [subnets, List.mem_cons, List.not_mem_nil, or_false] at hs
    rcases hs with rfl | rfl
    · exact ⟨"subnet-1", rfl, by decide, rfl⟩
    · exact ⟨"subnet-2", rfl, by decide, rfl⟩
  createLoadBalancer _ input :=
    if input.name = "" ∨ input.subnets = [] then .error unavailable else .ok (some (madeLoadBalancer input))
  newAttributes _ := [⟨some "deletion_protection.enabled", some "false"⟩]
  created := by
    intro _ input res h
    split at h
    · cases h
    · next hne =>
      cases h
      obtain ⟨hname, hsubnets⟩ := not_or.mp hne
      exact ⟨_, rfl, created_madeLoadBalancer hname hsubnets⟩
  securityGroup id _ := some { groupId := some id }
  read _ _ _ _ id _ := ⟨_, rfl, rfl⟩
  vpc _ _ := none

def resolving : Vpcs.Vpc where
  id := some 1
  cidrBlock := "10.0.0.0/16"
  enableDnsHostnames := some true
  enableDnsSupport := some true
  region := "us-east-1"

def silent : Vpcs.Vpc := { resolving with enableDnsHostnames := some false, enableDnsSupport := some false }

def web : LoadBalancers.LoadBalancer where
  id := some 1
  loadBalancerName := "web"
  scheme := .internetFacing
  loadBalancerType := .application
  ipAddressType := .ipv4
  securityGroups := some [{ groupId := some "sg-1" }]
  availabilityZones := some ["us-east-1a"]
  region := "us-east-1"

def protectedWeb : LoadBalancers.LoadBalancer :=
  { web with attributes := some [⟨some "deletion_protection.enabled", some "true"⟩] }

def onlyVpc (e : Vpcs.Vpc) : Option Nat → Vpcs.State := fun _ => ⟨none, e⟩

def onlyLoadBalancer (e : LoadBalancers.LoadBalancer) : Option Nat → LoadBalancers.State :=
  fun _ => ⟨none, e⟩

theorem resolving_and_web_honoured :
    Vpcs.Honoured resolving ((Vpcs.create ec2 [resolving] (onlyVpc resolving)).2 (some 1)) ∧
      LoadBalancers.Honoured web ((LoadBalancers.create elb [web] (onlyLoadBalancer web)).2 (some 1)) := by
  have h := creation_honours_iff ec2 elb [resolving] _ [web] _ (onlyVpc resolving) _ (onlyLoadBalancer web) _
    (List.nodup_singleton _) (List.nodup_singleton _) rfl rfl
  refine ⟨(h.1 resolving (List.mem_singleton_self _)).mpr ⟨rfl, .inl rfl⟩,
    (h.2 web (List.mem_singleton_self _)).mpr ⟨?_, ?_, ?_, ?_⟩⟩
  · rintro attributes ⟨⟩
  · rintro groups ⟨⟩
    exact iff_of_true (List.cons_ne_nil _ _) rfl
  · rintro subnets ⟨⟩
  · rintro zones ⟨⟩
    refine ⟨List.cons_ne_nil _ _, fun zone hzone => ?_⟩
    obtain rfl := List.mem_singleton.mp hzone
    exact ⟨subnets, defaultSubnet "subnet-1", rfl, List.mem_cons_self, rfl, rfl, rfl⟩

-- DNS support stays on, and no attribute is sent
theorem support_and_attributes_lost :
    (∃ out t, Vpcs.create ec2 [silent] (onlyVpc silent) = (.returned out, t) ∧
      ¬ Vpcs.Honoured silent (t silent.id)) ∧
      ∃ out t, LoadBalancers.create elb [protectedWeb] (onlyLoadBalancer protectedWeb) = (.returned out, t) ∧
        ¬ LoadBalancers.Honoured protectedWeb (t protectedWeb.id) := by
  refine ⟨⟨_, _, rfl, ?_⟩, ⟨_, _, rfl, ?_⟩⟩
  · rintro ⟨held, ⟨⟩, hagrees, -⟩
    have hsupport := hagrees.enableDnsSupport false rfl
    cases hsupport
  · rintro ⟨held, ⟨⟩, hagrees, -⟩
    have hattribute := hagrees.attributes _ rfl _ List.mem_cons_self
    revert hattribute
    decide

end Requests

end Iasql.Creations
