import Iasql.Calculus.Turns
import Iasql.Edits

namespace Iasql.LoadBalancers

open Program Prog Aws Edits SecurityGroups

section Entities

inductive LoadBalancerSchemeEnum where
  | internal | internetFacing
deriving DecidableEq

inductive LoadBalancerStateEnum where
  | active | activeImpaired | failed | provisioning
deriving DecidableEq

inductive LoadBalancerTypeEnum where
  | application | gateway | network
deriving DecidableEq

inductive IpAddressType where
  | dualstack | ipv4
deriving DecidableEq

structure LoadBalancerAttribute where
  key : Option String
  value : Option String
deriving DecidableEq

structure LoadBalancer where
  id : Option Nat := none
  loadBalancerName : String
  loadBalancerArn : Option String := none
  dnsName : Option String := none
  canonicalHostedZoneId : Option String := none
  createdTime : Option String := none
  scheme : LoadBalancerSchemeEnum
  state : Option LoadBalancerStateEnum := none
  loadBalancerType : LoadBalancerTypeEnum
  vpc : Option Vpc := none
  subnets : Option (List String) := none
  availabilityZones : Option (List String) := none
  securityGroups : Option (List SecurityGroup) := none
  ipAddressType : IpAddressType
  customerOwnedIpv4Pool : Option String := none
  region : String
  attributes : Option (List LoadBalancerAttribute) := none
deriving DecidableEq

structure AvailabilityZone where
  name : String
deriving DecidableEq

structure Subnet where
  availabilityZone : AvailabilityZone
  vpc : Vpc
  subnetId : Option String
  region : String
deriving DecidableEq

structure AwsAvailabilityZone where
  zoneName : Option String
  subnetId : Option String
deriving DecidableEq

structure AwsLoadBalancer where
  loadBalancerName : Option String
  loadBalancerArn : Option String
  dnsName : Option String := none
  canonicalHostedZoneId : Option String := none
  createdTime : Option String := none
  scheme : Option LoadBalancerSchemeEnum
  state : Option LoadBalancerStateEnum := none
  type : Option LoadBalancerTypeEnum
  securityGroups : Option (List String) := none
  ipAddressType : Option IpAddressType
  customerOwnedIpv4Pool : Option String := none
  vpcId : Option String
  availabilityZones : Option (List AwsAvailabilityZone)
deriving DecidableEq

-- a load balancer as AWS has it: its attributes are asked for by themselves
structure Held where
  loadBalancer : AwsLoadBalancer
  attributes : List LoadBalancerAttribute
deriving DecidableEq

abbrev State := Edits.State (Option Held) LoadBalancer

end Entities

section Elb

structure CreateLoadBalancer where
  name : String
  subnets : List String
  scheme : LoadBalancerSchemeEnum
  type : LoadBalancerTypeEnum
  ipAddressType : IpAddressType
  customerOwnedIpv4Pool : Option String
  securityGroups : Option (List String)

-- the security groups that a load balancer has: only one of an application has any, and it has
-- a default one where the request names none
structure Guarded (input : CreateLoadBalancer) (groups : List String) : Prop where
  named : input.type = .application → ∀ ids, input.securityGroups = some ids → ids ≠ [] →
    ∀ id, id ∈ groups ↔ id ∈ ids
  defaulted : input.type = .application → input.securityGroups.getD [] = [] → groups ≠ []
  unguarded : input.type ≠ .application → groups = []

-- a load balancer in the answer of AWS is in the subnets of the request, of which there is one
structure Created (zone : String → String) (input : CreateLoadBalancer) (lb : AwsLoadBalancer) : Prop where
  name : Aws.truthy lb.loadBalancerName = true
  arn : lb.loadBalancerArn.isSome = true
  scheme : lb.scheme = some input.scheme
  type : lb.type = some input.type
  ipAddressType : lb.ipAddressType = some input.ipAddressType
  vpcId : Aws.truthy lb.vpcId = true
  zones : ∀ az ∈ lb.availabilityZones.getD [], ∃ id, az = ⟨some (zone id), some id⟩
  subnets : ∀ id, id ∈ input.subnets ↔ ∃ az ∈ lb.availabilityZones.getD [], az.subnetId = some id
  nonempty : input.subnets ≠ []
  securityGroups : Guarded input (lb.securityGroups.getD [])

-- zone gives the zone of each subnet, and createLoadBalancer waits until the load balancer is active
structure Service where
  zone : String → String
  subnets : Except Thrown (List Subnet)
  zoned : ∀ all, subnets = .ok all → ∀ s ∈ all,
    ∃ id, s.subnetId = some id ∧ id ≠ "" ∧ zone id = s.availabilityZone.name
  createLoadBalancer : String → CreateLoadBalancer → Except Thrown (Option AwsLoadBalancer)
  newAttributes : LoadBalancerTypeEnum → List LoadBalancerAttribute
  created : ∀ region input res, createLoadBalancer region input = .ok res →
    ∃ lb, res = some lb ∧ Created zone input lb
  -- the group that the database, or else AWS, has under an id
  securityGroup : String → String → Option SecurityGroup
  read : ∀ region input lb, createLoadBalancer region input = .ok (some lb) →
    ∀ id ∈ lb.securityGroups.getD [], ∃ sg, securityGroup id region = some sg ∧ sg.groupId = some id
  vpc : String → String → Option Vpc

variable (service : Service)

def loadBalancerMapper (lb : AwsLoadBalancer) (attributes : Option (List LoadBalancerAttribute))
    (region : String) : Option LoadBalancer :=
  match lb.loadBalancerName.filter (· ≠ ""), lb.scheme, lb.type, lb.ipAddressType, lb.vpcId.filter (· ≠ "") with
  | some loadBalancerName, some scheme, some loadBalancerType, some ipAddressType, some vpcId => some {
      loadBalancerName
      loadBalancerArn := lb.loadBalancerArn
      dnsName := lb.dnsName
      canonicalHostedZoneId := lb.canonicalHostedZoneId
      createdTime := lb.createdTime
      scheme
      state := lb.state
      loadBalancerType
      securityGroups := some ((lb.securityGroups.getD []).filterMap fun sg => service.securityGroup sg region)
      ipAddressType
      customerOwnedIpv4Pool := lb.customerOwnedIpv4Pool
      vpc := service.vpc vpcId region
      availabilityZones := some ((lb.availabilityZones.getD []).map fun az => az.zoneName.getD "")
      subnets := some ((lb.availabilityZones.getD []).map fun az => az.subnetId.getD "")
      region
      attributes
    }
  | _, _, _, _, _ => none

def getLoadBalancer (arn : String) (s : State) : Option AwsLoadBalancer :=
  (s.aws.map (·.loadBalancer)).filter fun lb => lb.loadBalancerArn == some arn

def getLoadBalancerAttributes (arn : String) (s : State) : Option (List LoadBalancerAttribute) :=
  (s.aws.filter fun held => held.loadBalancer.loadBalancerArn == some arn).map (·.attributes)

-- the subnets of the default VPC, in the zones of e where it has any
def defaultSubnets (e : LoadBalancer) (all : List Subnet) : List String :=
  let subnets := all.filter fun s => s.region == e.region && s.vpc.isDefault
  let subnets := subnets.filter fun s =>
    match e.availabilityZones with
    | some (zone :: zones) => (zone :: zones).contains s.availabilityZone.name
    | _ => true
  subnets.map fun s => s.subnetId.getD ""

def usable : Option (List String) → Bool
  | some (subnet :: subnets) => (subnet :: subnets).all (· ≠ "")
  | _ => false

def notLoaded : Thrown := .error "Security group need to be loaded first"

def createInput (e : LoadBalancer) (all : List Subnet) : CreateLoadBalancer where
  name := e.loadBalancerName
  subnets := if usable e.subnets then e.subnets.getD [] else defaultSubnets e all
  scheme := e.scheme
  type := e.loadBalancerType
  ipAddressType := e.ipAddressType
  customerOwnedIpv4Pool := e.customerOwnedIpv4Pool
  securityGroups :=
    if e.loadBalancerType = .application then
      e.securityGroups.map fun groups => groups.map fun sg => sg.groupId.getD ""
    else none

def createOne (e : LoadBalancer) : Prog State Thrown (List LoadBalancer) :=
  match service.subnets with
  | .error err => fail err
  | .ok all =>
    if (e.securityGroups.getD []).any fun sg => !Aws.truthy sg.groupId then fail notLoaded
    else
      let input := createInput e all
      match service.createLoadBalancer e.region input with
      | .error err => fail err
      | .ok none => return []
      | .ok (some result) => do
        send fun _ => some ⟨result, service.newAttributes e.loadBalancerType⟩
        match result.loadBalancerArn with
        | none => fail (.error "what should we do here?")
        | some arn =>
          match ← reads (getLoadBalancer arn) with
          | none => return []
          | some newObject => do
            let attributes ← reads (getLoadBalancerAttributes (newObject.loadBalancerArn.getD ""))
            match loadBalancerMapper service newObject attributes e.region with
            | none => return []
            | some newEntity => do
              let newEntity := { newEntity with id := e.id }
              save newEntity
              return [newEntity]

-- each row has an entry of its own, with what AWS has for it
def create (es : List LoadBalancer) : Prog (Option Nat → State) Thrown (List LoadBalancer) :=
  gather (turn (·.id) (createOne service)) es

end Elb

section Creation

variable {service : Service} {e row : LoadBalancer} {lb : AwsLoadBalancer} {all : List Subnet} {s t : State}
  {out : List LoadBalancer}

-- the settable columns of a load balancer, as AWS or a row has them
structure Settings where
  scheme : Option LoadBalancerSchemeEnum
  loadBalancerType : Option LoadBalancerTypeEnum
  ipAddressType : Option IpAddressType
  attributes : List LoadBalancerAttribute
  securityGroups : List String
  subnets : List String
  availabilityZones : List String
deriving DecidableEq

def Held.settings (held : Held) : Settings where
  scheme := held.loadBalancer.scheme
  loadBalancerType := held.loadBalancer.type
  ipAddressType := held.loadBalancer.ipAddressType
  attributes := held.attributes
  securityGroups := held.loadBalancer.securityGroups.getD []
  subnets := (held.loadBalancer.availabilityZones.getD []).map fun az => az.subnetId.getD ""
  availabilityZones := (held.loadBalancer.availabilityZones.getD []).map fun az => az.zoneName.getD ""

def LoadBalancer.settings (e : LoadBalancer) : Settings where
  scheme := some e.scheme
  loadBalancerType := some e.loadBalancerType
  ipAddressType := some e.ipAddressType
  attributes := e.attributes.getD []
  securityGroups := (e.securityGroups.getD []).filterMap (·.groupId)
  subnets := e.subnets.getD []
  availabilityZones := e.availabilityZones.getD []

theorem filterMap_read {region : String} {ids : List String}
    (h : ∀ id ∈ ids, ∃ sg, service.securityGroup id region = some sg ∧ sg.groupId = some id) :
    (ids.filterMap fun id => service.securityGroup id region).filterMap (·.groupId) = ids := by
  rw [List.filterMap_filterMap]
  have hsome : ∀ id ∈ ids, ((service.securityGroup id region).bind (·.groupId)) = some id := by
    intro id hid
    obtain ⟨sg, hsg, hgroup⟩ := h id hid
    rw [hsg, Option.bind_some, hgroup]
  exact (List.filterMap_congr hsome).trans List.filterMap_some

-- the row of a new load balancer says of it what AWS does
theorem mapped_settings {input : CreateLoadBalancer} {attributes : List LoadBalancerAttribute}
    (h : Created service.zone input lb)
    (hread : ∀ id ∈ lb.securityGroups.getD [], ∃ sg, service.securityGroup id e.region = some sg ∧
      sg.groupId = some id) :
    ∃ row, loadBalancerMapper service lb (some attributes) e.region = some row ∧
      row.settings = Held.settings ⟨lb, attributes⟩ := by
  have htruthy : ∀ o : Option String, Aws.truthy o = true → ∃ n, o.filter (· ≠ "") = some n := by
    intro o ho
    obtain ⟨n, rfl⟩ := Aws.truthy_some ho
    have hn : n ≠ "" := by simpa [Aws.truthy] using ho
    exact ⟨n, by simp [Option.filter, hn]⟩
  obtain ⟨name, hname⟩ := htruthy _ h.name
  obtain ⟨vpcId, hvpc⟩ := htruthy _ h.vpcId
  rw [loadBalancerMapper, hname, h.scheme, h.type, h.ipAddressType, hvpc]
  refine ⟨_, rfl, ?_⟩
  simp only [LoadBalancer.settings, Held.settings, h.scheme, h.type, h.ipAddressType, Option.getD_some,
    filterMap_read hread]

-- a creation that returns leaves what AWS made of its request, and a row that says so
structure Left (service : Service) (e : LoadBalancer) (s : State) (all : List Subnet)
    (lb : AwsLoadBalancer) : Prop where
  subnets : service.subnets = .ok all
  loaded : ∀ sg ∈ e.securityGroups.getD [], ∃ id, sg.groupId = some id
  created : Created service.zone (createInput e all) lb
  aws : s.aws = some ⟨lb, service.newAttributes e.loadBalancerType⟩
  row : s.row.settings = Held.settings ⟨lb, service.newAttributes e.loadBalancerType⟩

theorem createOne_left (h : createOne service e s = (.returned out, t)) :
    ∃ all lb, Left service e t all lb := by
  rw [createOne] at h
  cases hsubnets : service.subnets with
  | error err =>
    rw [hsubnets] at h
    cases h
  | ok all =>
    simp only [hsubnets] at h
    by_cases hloaded : (e.securityGroups.getD []).any (fun sg => !Aws.truthy sg.groupId) = true
    · rw [if_pos hloaded] at h
      cases h
    · rw [if_neg hloaded] at h
      cases hanswer : service.createLoadBalancer e.region (createInput e all) with
      | error err =>
        rw [hanswer] at h
        cases h
      | ok answer =>
        obtain ⟨lb, rfl, hcreated⟩ := service.created _ _ _ hanswer
        obtain ⟨arn, harn⟩ := Option.isSome_iff_exists.mp hcreated.arn
        obtain ⟨row, hmapped, hsettings⟩ := @mapped_settings service e lb (createInput e all)
          (service.newAttributes e.loadBalancerType) hcreated (service.read _ _ _ hanswer)
        simp only [hanswer, harn] at h
        obtain ⟨⟨⟩, u, hsend, hrest⟩ := bind_returned_inv h
        obtain rfl := send_returned hsend
        have hlb : getLoadBalancer arn
            { s with aws := some ⟨lb, service.newAttributes e.loadBalancerType⟩ } = some lb := by
          simp [getLoadBalancer, Option.filter, harn]
        have hattributes : getLoadBalancerAttributes arn
            { s with aws := some ⟨lb, service.newAttributes e.loadBalancerType⟩ } =
              some (service.newAttributes e.loadBalancerType) := by
          simp [getLoadBalancerAttributes, Option.filter, harn]
        simp only [reads_bind_apply, hlb, harn, Option.getD_some, hattributes, hmapped] at hrest
        obtain ⟨⟨⟩, y, hsave, hpure⟩ := bind_returned_inv hrest
        obtain rfl := save_returned hsave
        cases hpure
        refine ⟨all, lb, hsubnets, fun sg hsg => ?_, hcreated, rfl, hsettings⟩
        have htruthy : Aws.truthy sg.groupId = true := by
          cases hsg' : Aws.truthy sg.groupId with
          | true => rfl
          | false => exact absurd (List.any_eq_true.mpr ⟨sg, hsg, by rw [hsg']; rfl⟩) hloaded
        exact Aws.truthy_some htruthy

end Creation

section Agreement

-- the columns that e sets are as e sets them
structure Agrees (e : LoadBalancer) (settings : Settings) : Prop where
  scheme : settings.scheme = some e.scheme
  loadBalancerType : settings.loadBalancerType = some e.loadBalancerType
  ipAddressType : settings.ipAddressType = some e.ipAddressType
  attributes : ∀ attributes ∈ e.attributes, ∀ a ∈ attributes, a ∈ settings.attributes
  securityGroups : ∀ groups ∈ e.securityGroups, ∀ id,
    id ∈ settings.securityGroups ↔ id ∈ groups.filterMap (·.groupId)
  subnets : ∀ subnets ∈ e.subnets, ∀ id, id ∈ settings.subnets ↔ id ∈ subnets
  availabilityZones : ∀ zones ∈ e.availabilityZones, ∀ zone, zone ∈ settings.availabilityZones ↔ zone ∈ zones

def Honoured (e : LoadBalancer) (s : State) : Prop :=
  ∃ held, s.aws = some held ∧ Agrees e held.settings ∧ Agrees e s.row.settings

def HasDefault (service : Service) (region zone : String) : Prop :=
  ∃ all s, service.subnets = .ok all ∧ s ∈ all ∧ s.region = region ∧ s.vpc.isDefault = true ∧
    s.availabilityZone.name = zone

-- the zones are those of the subnets that are set, or the default VPC has a subnet in each of them
def ZonesKept (service : Service) (e : LoadBalancer) (zones : List String) : Prop :=
  if usable e.subnets then ∀ zone, zone ∈ zones ↔ ∃ id ∈ e.subnets.getD [], service.zone id = zone
  else zones ≠ [] ∧ ∀ zone ∈ zones, HasDefault service e.region zone

structure Kept (service : Service) (e : LoadBalancer) : Prop where
  attributes : ∀ attributes ∈ e.attributes, ∀ a ∈ attributes, a ∈ service.newAttributes e.loadBalancerType
  securityGroups : ∀ groups ∈ e.securityGroups, groups ≠ [] ↔ e.loadBalancerType = .application
  subnets : ∀ subnets ∈ e.subnets, usable (some subnets) = true
  availabilityZones : ∀ zones ∈ e.availabilityZones, ZonesKept service e zones

variable {service : Service} {e : LoadBalancer} {lb : AwsLoadBalancer} {all : List Subnet} {s t : State}
  {out : List LoadBalancer}

section Groups

variable {groups : List SecurityGroup}

theorem mem_sentGroups (hloaded : ∀ sg ∈ groups, ∃ id, sg.groupId = some id) (id : String) :
    id ∈ groups.map (fun sg => sg.groupId.getD "") ↔ id ∈ groups.filterMap (·.groupId) := by
  rw [List.mem_map, List.mem_filterMap]
  refine exists_congr fun sg => and_congr_right fun hsg => ?_
  obtain ⟨n, hn⟩ := hloaded sg hsg
  rw [hn, Option.getD_some, Option.some_inj]

theorem exists_groupId (hloaded : ∀ sg ∈ groups, ∃ id, sg.groupId = some id) (hne : groups ≠ []) :
    ∃ id, id ∈ groups.filterMap (·.groupId) := by
  obtain ⟨sg, hsg⟩ := List.exists_mem_of_ne_nil groups hne
  obtain ⟨id, hid⟩ := hloaded sg hsg
  exact ⟨id, List.mem_filterMap.mpr ⟨sg, hsg, hid⟩⟩

theorem guarded_iff {ids : List String} (hgroups : e.securityGroups = some groups)
    (hloaded : ∀ sg ∈ groups, ∃ id, sg.groupId = some id) (h : Guarded (createInput e all) ids) :
    (∀ id, id ∈ ids ↔ id ∈ groups.filterMap (·.groupId)) ↔
      (groups ≠ [] ↔ e.loadBalancerType = .application) := by
  by_cases htype : e.loadBalancerType = .application
  · have hsent : (createInput e all).securityGroups = some (groups.map fun sg => sg.groupId.getD "") := by
      simp [createInput, htype, hgroups]
    rw [iff_true_right htype]
    by_cases hempty : groups = []
    · subst hempty
      refine iff_of_false (fun hall => ?_) (not_not.mpr rfl)
      obtain ⟨id, hid⟩ := List.exists_mem_of_ne_nil ids (h.defaulted htype (by rw [hsent]; rfl))
      exact List.not_mem_nil ((hall id).mp hid)
    · refine iff_of_true (fun id => ?_) hempty
      have hne : groups.map (fun sg => sg.groupId.getD "") ≠ [] := mt List.map_eq_nil_iff.mp hempty
      rw [h.named htype _ hsent hne, mem_sentGroups hloaded]
  · rw [h.unguarded htype, iff_false_right htype, not_not]
    constructor
    · intro hall
      by_contra hne
      obtain ⟨id, hid⟩ := exists_groupId hloaded hne
      exact List.not_mem_nil ((hall id).mpr hid)
    · rintro rfl
      exact fun _ => Iff.rfl

end Groups

section Placement

theorem Created.mem_subnets {zone : String → String} {input : CreateLoadBalancer}
    {attributes : List LoadBalancerAttribute} (h : Created zone input lb) (id : String) :
    id ∈ (Held.settings ⟨lb, attributes⟩).subnets ↔ id ∈ input.subnets := by
  rw [h.subnets, Held.settings, List.mem_map]
  refine exists_congr fun az => and_congr_right fun haz => ?_
  obtain ⟨n, rfl⟩ := h.zones az haz
  rw [Option.getD_some, Option.some_inj]

theorem Created.mem_zones {zone : String → String} {input : CreateLoadBalancer}
    {attributes : List LoadBalancerAttribute} (h : Created zone input lb) (z : String) :
    z ∈ (Held.settings ⟨lb, attributes⟩).availabilityZones ↔ ∃ id ∈ input.subnets, zone id = z := by
  rw [Held.settings, List.mem_map]
  constructor
  · rintro ⟨az, haz, hz⟩
    obtain ⟨id, rfl⟩ := h.zones az haz
    exact ⟨id, (h.subnets id).mpr ⟨_, haz, rfl⟩, hz⟩
  · rintro ⟨id, hid, hz⟩
    obtain ⟨az, haz, hsubnet⟩ := (h.subnets id).mp hid
    obtain ⟨n, rfl⟩ := h.zones az haz
    cases hsubnet
    exact ⟨_, haz, hz⟩

-- the zones in which a subnet of the default VPC is taken
def taken (e : LoadBalancer) (zone : String) : Prop :=
  ∀ zones ∈ e.availabilityZones, zones ≠ [] → zone ∈ zones

theorem mem_defaultSubnets {id : String} : id ∈ defaultSubnets e all ↔
    ∃ s ∈ all, s.region = e.region ∧ s.vpc.isDefault = true ∧ taken e s.availabilityZone.name ∧
      s.subnetId.getD "" = id := by
  have htaken : ∀ zone, (match e.availabilityZones with
      | some (zone' :: zones) => (zone' :: zones).contains zone
      | _ => true) = true ↔ taken e zone := by
    intro zone
    rw [taken]
    rcases e.availabilityZones with _ | _ | ⟨zone', zones⟩ <;> simp
  simp only [defaultSubnets, List.mem_map, List.mem_filter, htaken, Bool.and_eq_true, beq_iff_eq, and_assoc]

theorem zones_of_defaultSubnets (hsubnets : service.subnets = .ok all) {zone : String} :
    (∃ id ∈ defaultSubnets e all, service.zone id = zone) ↔
      HasDefault service e.region zone ∧ taken e zone := by
  constructor
  · rintro ⟨id, hid, rfl⟩
    obtain ⟨s, hs, hregion, hdefault, htaken, hs'⟩ := mem_defaultSubnets.mp hid
    obtain ⟨n, hn, -, hzone⟩ := service.zoned all hsubnets s hs
    rw [hn, Option.getD_some] at hs'
    subst hs'
    exact ⟨⟨all, s, hsubnets, hs, hregion, hdefault, hzone.symm⟩, hzone ▸ htaken⟩
  · rintro ⟨⟨all', s, hall, hs, hregion, hdefault, rfl⟩, htaken⟩
    obtain rfl : all = all' := Except.ok.inj (hsubnets.symm.trans hall)
    obtain ⟨n, hn, -, hzone⟩ := service.zoned all hsubnets s hs
    exact ⟨n, mem_defaultSubnets.mpr ⟨s, hs, hregion, hdefault, htaken, by rw [hn]; rfl⟩, hzone⟩

theorem subnets_iff (hsubnets : service.subnets = .ok all) (hne : (createInput e all).subnets ≠ [])
    {subnets : List String} (he : e.subnets = some subnets) :
    (∀ id, id ∈ (createInput e all).subnets ↔ id ∈ subnets) ↔ usable (some subnets) = true := by
  rw [createInput, he] at hne ⊢
  by_cases husable : usable (some subnets) = true
  · refine iff_of_true (fun id => ?_) husable
    rw [if_pos husable]
    rfl
  · refine iff_of_false (fun hall => ?_) husable
    rw [if_neg husable] at hne
    simp only [if_neg husable] at hall
    cases subnets with
    | nil =>
      obtain ⟨id, hid⟩ := List.exists_mem_of_ne_nil _ hne
      exact List.not_mem_nil ((hall id).mp hid)
    | cons subnet rest =>
      have hempty : "" ∈ subnet :: rest := by
        rw [usable, List.all_eq_true] at husable
        push Not at husable
        obtain ⟨id, hid, hnot⟩ := husable
        have hid' : id = "" := by simpa using hnot
        exact hid' ▸ hid
      obtain ⟨s, hs, -, -, -, hs'⟩ := mem_defaultSubnets.mp ((hall "").mpr hempty)
      obtain ⟨n, hn, hnonempty, -⟩ := service.zoned all hsubnets s hs
      rw [hn] at hs'
      exact hnonempty hs'

theorem zones_iff (hsubnets : service.subnets = .ok all) (hne : (createInput e all).subnets ≠ [])
    {zones : List String} (he : e.availabilityZones = some zones) :
    (∀ z, (∃ id ∈ (createInput e all).subnets, service.zone id = z) ↔ z ∈ zones) ↔
      ZonesKept service e zones := by
  rw [ZonesKept, createInput] at *
  by_cases husable : usable e.subnets = true
  · simp only [if_pos husable]
    exact forall_congr' fun zone => ⟨Iff.symm, Iff.symm⟩
  · rw [if_neg husable] at hne
    simp only [if_neg husable, zones_of_defaultSubnets hsubnets]
    by_cases hempty : zones = []
    · subst hempty
      refine iff_of_false (fun hall => ?_) fun h => h.1 rfl
      obtain ⟨id, hid⟩ := List.exists_mem_of_ne_nil _ hne
      have hzone := (zones_of_defaultSubnets hsubnets).mp ⟨id, hid, rfl⟩
      exact List.not_mem_nil ((hall _).mp hzone)
    · have htaken : ∀ z, taken e z ↔ z ∈ zones := by
        intro z
        simp [taken, he, hempty]
      simp only [htaken]
      constructor
      · exact fun hall => ⟨hempty, fun z hz => ((hall z).mpr hz).1⟩
      · rintro ⟨-, hdefault⟩ z
        exact and_iff_right_of_imp (hdefault z)

end Placement

theorem Left.agrees_iff (h : Left service e s all lb) :
    Agrees e (Held.settings ⟨lb, service.newAttributes e.loadBalancerType⟩) ↔ Kept service e := by
  have hgroups : ∀ groups ∈ e.securityGroups,
      (∀ id, id ∈ lb.securityGroups.getD [] ↔ id ∈ groups.filterMap (·.groupId)) ↔
      (groups ≠ [] ↔ e.loadBalancerType = .application) := by
    intro groups hg
    have hloaded := h.loaded
    rw [Option.mem_def.mp hg] at hloaded
    exact guarded_iff hg hloaded h.created.securityGroups
  constructor
  · intro hagrees
    refine ⟨hagrees.attributes,
      fun groups hg => (hgroups groups hg).mp (hagrees.securityGroups groups hg), ?_, ?_⟩
    · intro subnets hs
      refine (subnets_iff h.subnets h.created.nonempty hs).mp fun id => ?_
      exact (h.created.mem_subnets id).symm.trans (hagrees.subnets subnets hs id)
    · intro zones hz
      refine (zones_iff h.subnets h.created.nonempty hz).mp fun z => ?_
      exact (h.created.mem_zones z).symm.trans (hagrees.availabilityZones zones hz z)
  · intro hkept
    refine ⟨h.created.scheme, h.created.type, h.created.ipAddressType, hkept.attributes,
      fun groups hg => (hgroups groups hg).mpr (hkept.securityGroups groups hg), ?_, ?_⟩
    · intro subnets hs id
      exact (h.created.mem_subnets id).trans
        ((subnets_iff h.subnets h.created.nonempty hs).mpr (hkept.subnets subnets hs) id)
    · intro zones hz z
      exact (h.created.mem_zones z).trans
        ((zones_iff h.subnets h.created.nonempty hz).mpr (hkept.availabilityZones zones hz) z)

theorem honoured_iff (h : createOne service e s = (.returned out, t)) : Honoured e t ↔ Kept service e := by
  obtain ⟨all, lb, hleft⟩ := createOne_left h
  rw [← hleft.agrees_iff]
  constructor
  · rintro ⟨held, hheld, hagrees, -⟩
    obtain rfl := Option.some.inj (hleft.aws.symm.trans hheld)
    exact hagrees
  · intro hagrees
    exact ⟨_, hleft.aws, hagrees, hleft.row ▸ hagrees⟩

end Agreement

end Iasql.LoadBalancers
