import Iasql.FargateEquals
import Iasql.LoadBalancerCreate
import Iasql.OpenSearch
import Iasql.PolicyRewrites

namespace Iasql.ListEquals

open AwsDiff Fargate GeneratedKeys OneSided
open CanonicalPolicy (LowerCase ascii policiesAreSame policiesAreSame_equivalence)
open ContainerDefinitions (ContainerDefinition)
open Instances (Subnet)
open LoadBalancers (LoadBalancer LoadBalancerAttribute)
open OpenSearch (Domain)
open SecurityGroups (SecurityGroup)

section Balancers

-- a date is compared by its time
def LoadBalancerMapper.equals (a b : LoadBalancer) : Bool :=
  a.availabilityZones.map List.length == b.availabilityZones.map List.length &&
    (a.availabilityZones.map fun zones => (zones.filter (· != "")).all fun aaz =>
      (((b.availabilityZones.getD []).filter (· != "")).find? fun baz => aaz == baz).any
        (· != "")).getD false &&
    a.canonicalHostedZoneId == b.canonicalHostedZoneId && a.createdTime == b.createdTime &&
    a.customerOwnedIpv4Pool == b.customerOwnedIpv4Pool && a.dnsName == b.dnsName &&
    a.ipAddressType == b.ipAddressType && a.loadBalancerName == b.loadBalancerName &&
    a.loadBalancerType == b.loadBalancerType && a.scheme == b.scheme &&
    listed (fun asg bs => (bs.find? fun bsg => asg.groupId == bsg.groupId).isSome)
      a.securityGroups b.securityGroups &&
    a.state == b.state &&
    listed (fun asn bs => (bs.find? fun bsn => asn == bsn).any (· != "")) a.subnets b.subnets &&
    a.vpc.bind (·.vpcId) == b.vpc.bind (·.vpcId) && a.region == b.region &&
    listed (fun aatt bs => (bs.find? fun batt => aatt.key == batt.key && aatt.value == batt.value).isSome)
      a.attributes b.attributes

variable {reading : Reading}

def balancerColumns (reading : Reading) (a : LoadBalancer) : LoadBalancer :=
  { a with
    id := reading.key a.id
    vpc := a.vpc.map (vpcColumns reading)
    securityGroups := a.securityGroups.map (List.map (groupColumns reading)) }

def LoadBalancerMapper.Same (a b : LoadBalancer) : Prop :=
  SameBy (fun zone => zone) a.availabilityZones b.availabilityZones ∧
    SameBy (·.groupId) a.securityGroups b.securityGroups ∧
    SameBy (fun subnet => subnet) a.subnets b.subnets ∧
    SameBy (fun att => att) a.attributes b.attributes

def attributes : Elements LoadBalancerAttribute LoadBalancerAttribute LoadBalancerAttribute
    LoadBalancerAttribute where
  key att := att
  columns att := att
  value att := att
  skipped _ := False
  findable _ := True

theorem lawful_attributes (a : Option (List LoadBalancerAttribute)) :
    Lawful attributes.Matches attributes.Copies (SameBy fun att => att) a ↔
      DistinctBy (fun att => att) (fun _ => True) a := by
  refine (lawful_iff fun ks => ?_).trans (distinctBy_congr fun att => ?_)
  · obtain ⟨name, hname⟩ := Infinite.exists_notMem_finset (ks.map (·.key)).toFinset
    refine ⟨⟨name, none⟩, fun h => ?_, not_false⟩
    exact hname (List.mem_toFinset.mpr (List.mem_map.mpr ⟨_, h, rfl⟩))
  · exact iff_of_true ⟨not_false, trivial, fun _ h => h, fun _ h => h⟩ trivial

theorem listed_attributes {a b : Option (List LoadBalancerAttribute)} :
    listed (fun aatt bs => (bs.find? fun batt => aatt.key == batt.key && aatt.value == batt.value).isSome)
      a b = true ↔ attributes.Matches a b := by
  refine listed_iff fun att bs => ?_
  have hsame : ∀ other : LoadBalancerAttribute,
      att.key = other.key ∧ att.value = other.value ↔ att = other := by
    intro other
    cases att
    cases other
    rw [LoadBalancerAttribute.mk.injEq]
  rw [List.find?_isSome]
  simp only [attributes, Bool.and_eq_true, beq_iff_eq, hsame, false_or, true_and, List.map_id']
  exact exists_eq_right'

def LoadBalancerMapper.rest (a : LoadBalancer) :=
  (a.canonicalHostedZoneId, a.createdTime, a.customerOwnedIpv4Pool, a.dnsName, a.ipAddressType,
    a.loadBalancerName, a.loadBalancerType, a.scheme, a.state, a.vpc.bind (·.vpcId), a.region)

theorem LoadBalancerMapper.rest_columns (a : LoadBalancer) :
    LoadBalancerMapper.rest (balancerColumns reading a) = LoadBalancerMapper.rest a := by
  simp [LoadBalancerMapper.rest, balancerColumns, vpcColumns, Option.bind_map, Function.comp_def]

def LoadBalancerMapper.lists (a : LoadBalancer) :=
  (a.availabilityZones, a.securityGroups, a.subnets, a.attributes)

theorem LoadBalancerMapper.parted (reading : Reading) :
    Parted (fun a b => LoadBalancerMapper.equals a b = true)
      (fun a b => balancerColumns reading a = balancerColumns reading b) LoadBalancerMapper.Same
      (fun a b => LoadBalancerMapper.rest a = LoadBalancerMapper.rest b) LoadBalancerMapper.lists
      (Both zones.Matches (Both (groups reading).Matches (Both subnetIds.Matches attributes.Matches)))
      (Both zones.Copies (Both (groups reading).Copies (Both subnetIds.Copies attributes.Copies)))
      (Both (SameBy fun zone => zone) (Both (SameBy (·.groupId)) (Both (SameBy fun subnet => subnet)
        (SameBy fun att => att)))) where
  equivalence := ⟨fun _ => rfl, Eq.symm, Eq.trans⟩
  eq_iff a b := by
    rw [Both, Both, Both, LoadBalancerMapper.lists, LoadBalancerMapper.lists, ← listed_zones,
      ← listed_groups, ← listed_subnetIds, ← listed_attributes]
    simp only [LoadBalancerMapper.equals, LoadBalancerMapper.rest, Bool.and_eq_true, beq_iff_eq,
      Prod.mk.injEq]
    tauto
  same_iff a b := Iff.rfl
  of_alike a b h := by
    have hrest := congrArg LoadBalancerMapper.rest h
    rw [LoadBalancerMapper.rest_columns, LoadBalancerMapper.rest_columns] at hrest
    have hzones := congrArg LoadBalancer.availabilityZones h
    have hsubnets := congrArg LoadBalancer.subnets h
    have hattributes := congrArg LoadBalancer.attributes h
    exact ⟨hrest, congrArg (Option.map (List.map zones.columns)) hzones,
      congrArg LoadBalancer.securityGroups h, congrArg (Option.map (List.map subnetIds.columns)) hsubnets,
      congrArg (Option.map (List.map attributes.columns)) hattributes⟩
  replaced a p := by
    obtain ⟨azs, sgs, sns, atts⟩ := p
    refine ⟨{ a with
      availabilityZones := azs
      securityGroups := sgs
      subnets := sns
      attributes := atts }, rfl, rfl, fun hcopies => ?_⟩
    obtain ⟨hzones, hgroups, hsubnets, hattributes⟩ := hcopies
    have hgroups : a.securityGroups.map (List.map (groupColumns reading)) =
        sgs.map (List.map (groupColumns reading)) := hgroups
    have hzones : a.availabilityZones = azs := by simpa [Elements.Copies, zones, lists] using hzones
    have hsubnets : a.subnets = sns := by simpa [Elements.Copies, subnetIds, lists] using hsubnets
    have hattributes : a.attributes = atts := by
      simpa [Elements.Copies, attributes, lists] using hattributes
    simp only [balancerColumns, hzones, hgroups, hsubnets, hattributes]

theorem LoadBalancerMapper.lawful_iff (reading : Reading) (a : LoadBalancer) :
    Lawful (fun a b => LoadBalancerMapper.equals a b = true)
        (fun a b => balancerColumns reading a = balancerColumns reading b) LoadBalancerMapper.Same a ↔
      DistinctBy (fun zone => zone) (· ≠ "") a.availabilityZones ∧
        DistinctBy (·.groupId) (fun _ => True) a.securityGroups ∧
        DistinctBy (fun subnet => subnet) (· ≠ "") a.subnets ∧
        DistinctBy (fun att => att) (fun _ => True) a.attributes := by
  refine ((LoadBalancerMapper.parted reading).lawful_iff a).trans ?_
  refine (lawful_both ?_ ?_).trans (and_congr (lawful_zones a.availabilityZones) ?_)
  · exact rfl
  · exact ⟨rfl, rfl, rfl⟩
  refine (lawful_both ?_ ?_).trans (and_congr (lawful_groups a.securityGroups) ?_)
  · exact rfl
  · exact ⟨rfl, rfl⟩
  refine (lawful_both ?_ ?_).trans
    (and_congr (lawful_subnetIds a.subnets) (lawful_attributes a.attributes))
  · exact rfl
  · exact rfl

end Balancers

section Domains

variable (lower : LowerCase) {subnetRows : Table Subnet (·.id)} {groupRows : Table SecurityGroup (·.id)}
  {reading : Reading}

def DomainMapper.equals (a b : Domain subnetRows.Record groupRows.Record) : Bool :=
  a.customEndpoint == b.customEndpoint &&
    a.customEndpointCertificate.map (·.arn) == b.customEndpointCertificate.map (·.arn) &&
    a.version == b.version && a.availabilityZoneCount == b.availabilityZoneCount &&
    a.instanceType == b.instanceType && a.instanceCount == b.instanceCount &&
    sameColumn a.ebsOptions b.ebsOptions && a.warmInstanceType == b.warmInstanceType &&
    a.coldStorage == b.coldStorage && a.dedicatedMasterType == b.dedicatedMasterType &&
    a.dedicatedMasterCount == b.dedicatedMasterCount && a.autoTune == b.autoTune &&
    listed (fun sa bs => (bs.find? fun sb => sa.1.id == sb.1.id).isSome) a.subnets b.subnets &&
    listed (fun sa bs => (bs.find? fun sb => sa.1.id == sb.1.id).isSome) a.securityGroups b.securityGroups &&
    a.enableFineGrainedAccessControl == b.enableFineGrainedAccessControl &&
    a.fineGrainedAccessControlUserArn == b.fineGrainedAccessControlUserArn &&
    a.fineGrainedAccessControlMasterUsername == b.fineGrainedAccessControlMasterUsername &&
    a.fineGrainedAccessControlMasterPassword == b.fineGrainedAccessControlMasterPassword &&
    policiesAreSame lower a.accessPolicy b.accessPolicy && a.endpoint == b.endpoint

variable {lower}

def domainColumns (reading : Reading) (a : Domain subnetRows.Record groupRows.Record) :
    Domain Subnet SecurityGroup :=
  { a with
    id := reading.key a.id
    subnets := a.subnets.map (List.map fun subnet => subnetColumns reading subnet.1)
    securityGroups := a.securityGroups.map (List.map fun group => groupColumns reading group.1) }

-- a subnet is what its columns say, whatever its key
def DomainMapper.Same (a b : Domain subnetRows.Record groupRows.Record) : Prop :=
  SameBy (fun subnet => subnetColumns .withoutKeys subnet.1) a.subnets b.subnets ∧
    SameBy (fun group => group.1.groupId) a.securityGroups b.securityGroups

theorem listed_byKey {R ν : Type} {keyOf : R → Option Nat} {table : Table R keyOf}
    {columns : Reading → R → R} {value : R → ν} {a b : Option (List table.Record)} :
    listed (fun sa bs => (bs.find? fun sb => keyOf sa.1 == keyOf sb.1).isSome) a b = true ↔
      (byKey table reading columns value).Matches a b := by
  refine listed_iff fun record bs => ?_
  simp only [byKey, List.find?_isSome, beq_iff_eq, false_or, true_and, List.mem_map]
  simp only [eq_comm (a := keyOf record.1)]

def DomainMapper.rest {S G : Type} (a : Domain S G) :=
  (a.customEndpoint, a.customEndpointCertificate.map (·.arn), a.version, a.availabilityZoneCount,
    a.instanceType, a.instanceCount, a.warmInstanceType, a.coldStorage, a.dedicatedMasterType,
    a.dedicatedMasterCount, a.autoTune, a.enableFineGrainedAccessControl,
    a.fineGrainedAccessControlUserArn, a.fineGrainedAccessControlMasterUsername,
    a.fineGrainedAccessControlMasterPassword, a.endpoint)

def DomainMapper.SameRest {S G : Type} (lower : LowerCase) (a b : Domain S G) : Prop :=
  DomainMapper.rest a = DomainMapper.rest b ∧ sameColumn a.ebsOptions b.ebsOptions = true ∧
    policiesAreSame lower a.accessPolicy b.accessPolicy = true

theorem DomainMapper.sameRest_equivalence {S G : Type} :
    Equivalence (DomainMapper.SameRest (S := S) (G := G) lower) where
  refl _ := ⟨rfl, sameColumn_equivalence.refl _, policiesAreSame_equivalence.refl _⟩
  symm h := ⟨h.1.symm, sameColumn_equivalence.symm h.2.1, policiesAreSame_equivalence.symm h.2.2⟩
  trans h h' := ⟨h.1.trans h'.1, sameColumn_equivalence.trans h.2.1 h'.2.1,
    policiesAreSame_equivalence.trans h.2.2 h'.2.2⟩

theorem DomainMapper.parted (lower : LowerCase) (subnetRows : Table Subnet (·.id))
    (groupRows : Table SecurityGroup (·.id)) (reading : Reading) :
    Parted (fun a b => DomainMapper.equals lower a b = true)
      (fun a b : Domain subnetRows.Record groupRows.Record =>
        domainColumns reading a = domainColumns reading b) DomainMapper.Same
      (DomainMapper.SameRest lower) (fun a => (a.subnets, a.securityGroups))
      (Both (byKey subnetRows reading subnetColumns (subnetColumns .withoutKeys)).Matches
        (byKey groupRows reading groupColumns (·.groupId)).Matches)
      (Both (byKey subnetRows reading subnetColumns (subnetColumns .withoutKeys)).Copies
        (byKey groupRows reading groupColumns (·.groupId)).Copies)
      (Both (SameBy fun subnet => subnetColumns .withoutKeys subnet.1)
        (SameBy fun group => group.1.groupId)) where
  equivalence := DomainMapper.sameRest_equivalence
  eq_iff a b := by
    rw [Both, ← listed_byKey, ← listed_byKey]
    simp only [DomainMapper.equals, DomainMapper.SameRest, DomainMapper.rest, Bool.and_eq_true,
      beq_iff_eq, Prod.mk.injEq]
    tauto
  same_iff a b := Iff.rfl
  of_alike a b h := by
    have hrest := congrArg DomainMapper.rest h
    have hebs : a.ebsOptions = b.ebsOptions := by
      have heq := congrArg Domain.ebsOptions h
      exact heq
    have hpolicy : a.accessPolicy = b.accessPolicy := by
      have heq := congrArg Domain.accessPolicy h
      exact heq
    refine ⟨⟨hrest, ?_, ?_⟩, congrArg Domain.subnets h, congrArg Domain.securityGroups h⟩
    · exact hebs ▸ sameColumn_equivalence.refl _
    · exact hpolicy ▸ policiesAreSame_equivalence.refl _
  replaced a p := by
    refine ⟨{ a with subnets := p.1, securityGroups := p.2 }, rfl,
      ⟨rfl, sameColumn_equivalence.refl _, policiesAreSame_equivalence.refl _⟩,
      fun hcopies => ?_⟩
    obtain ⟨hsubnets, hgroups⟩ := hcopies
    have hsubnets : a.subnets.map (List.map fun subnet => subnetColumns reading subnet.1) =
        p.1.map (List.map fun subnet => subnetColumns reading subnet.1) := hsubnets
    have hgroups : a.securityGroups.map (List.map fun group => groupColumns reading group.1) =
        p.2.map (List.map fun group => groupColumns reading group.1) := hgroups
    simp only [domainColumns, hsubnets, hgroups]

theorem DomainMapper.lawful_iff (lower : LowerCase) (reading : Reading)
    (a : Domain subnetRows.Record groupRows.Record) :
    Lawful (fun a b => DomainMapper.equals lower a b = true)
        (fun a b => domainColumns reading a = domainColumns reading b) DomainMapper.Same a ↔
      DistinctBy (fun subnet => subnet.1.id)
          (fun subnet => subnet.1.id.isSome = true ∧ reading = .withKeys) a.subnets ∧
        DistinctBy (fun group => group.1.id)
          (fun group => group.1.id.isSome = true ∧ reading = .withKeys) a.securityGroups := by
  have hsubnets := @lawful_byKey _ _ _ subnetRows reading subnetColumns (subnetColumns .withoutKeys)
    (fun _ => rfl) (subnetColumns_idem reading) ⟨⟨none, some "", ""⟩, ⟨none, none, ""⟩, rfl, rfl, by decide⟩
    a.subnets
  have hgroups := @lawful_byKey _ _ _ groupRows reading groupColumns (·.groupId)
    (fun _ => rfl) (groupColumns_idem reading) ⟨{ groupId := some "" }, {}, rfl, rfl, by decide⟩
    a.securityGroups
  refine ((DomainMapper.parted lower subnetRows groupRows reading).lawful_iff a).trans ?_
  refine (lawful_both ?_ ?_).trans (and_congr hsubnets hgroups)
  · exact rfl
  · exact rfl

end Domains

section Mappers

-- equals is symmetric, transitive, true of copies and says that the lists are the same, at a record
-- whose lists are set and hold elements that are told apart
theorem equals_as_sets (lower : LowerCase) (repositories : Repositories)
    (subnetRows : Table Subnet (·.id)) (groupRows : Table SecurityGroup (·.id)) (reading : Reading) :
    (∀ a : Service, Lawful (fun a b => ServiceMapper.equals a b = true)
        (fun a b => serviceColumns reading a = serviceColumns reading b) ServiceMapper.Same a ↔
      DistinctBy (·.groupId) (fun _ => True) a.securityGroups ∧
        DistinctBy (fun subnet => subnet) (· ≠ "") a.subnets) ∧
    (∀ a : LoadBalancer, Lawful (fun a b => LoadBalancerMapper.equals a b = true)
        (fun a b => balancerColumns reading a = balancerColumns reading b) LoadBalancerMapper.Same a ↔
      DistinctBy (fun zone => zone) (· ≠ "") a.availabilityZones ∧
        DistinctBy (·.groupId) (fun _ => True) a.securityGroups ∧
        DistinctBy (fun subnet => subnet) (· ≠ "") a.subnets ∧
        DistinctBy (fun att => att) (fun _ => True) a.attributes) ∧
    (∀ a : TaskDefinition (Container repositories),
      Lawful (fun a b => TaskDefinitionMapper.equals a b = .ok true)
        (fun a b => taskColumns reading Subtype.val a = taskColumns reading Subtype.val b)
        (fun a b => SameBy (fun c => defined c.1) a.containerDefinitions b.containerDefinitions) a ↔
      DistinctBy (fun c => comparedAs c.1) (fun c => ToldApart reading c.1) a.containerDefinitions) ∧
    ∀ a : Domain subnetRows.Record groupRows.Record,
      Lawful (fun a b => DomainMapper.equals lower a b = true)
        (fun a b => domainColumns reading a = domainColumns reading b) DomainMapper.Same a ↔
      DistinctBy (fun subnet => subnet.1.id)
          (fun subnet => subnet.1.id.isSome = true ∧ reading = .withKeys) a.subnets ∧
        DistinctBy (fun group => group.1.id)
          (fun group => group.1.id.isSome = true ∧ reading = .withKeys) a.securityGroups :=
  ⟨ServiceMapper.lawful_iff reading, LoadBalancerMapper.lawful_iff reading,
    TaskDefinitionMapper.lawful_iff reading, DomainMapper.lawful_iff lower reading⟩

def service (subnets : Option (List String)) : Service where
  name := "web"
  subnets := subnets
  securityGroups := subnets.map fun _ => []
  region := "us-east-1"

def balancer : LoadBalancer where
  loadBalancerName := "front"
  scheme := .internal
  loadBalancerType := .application
  subnets := some ["subnet-1"]
  availabilityZones := some ["us-east-1a"]
  securityGroups := some []
  ipAddressType := .ipv4
  region := "us-east-1"

def repositoryRows : Repositories where
  row i := { unnamed with id := some i }
  keyOf_row _ := rfl

-- a container of a repository that is not in the database
def mappedContainer (repositoryName : String) : Container repositoryRows :=
  ⟨{ name := "web"
     repository := some { unnamed with
       repositoryName := repositoryName
       located := by
         intro uri h
         cases h }
     region := "us-east-1" }, by
    intro repository h
    obtain rfl := Option.some.inj h
    exact holds_of_none rfl⟩

def task (repositoryName : String) : TaskDefinition (Container repositoryRows) where
  family := "web"
  containerDefinitions := some [mappedContainer repositoryName]
  region := "us-east-1"

def subnetTable : Table Subnet (·.id) := ⟨fun i => ⟨some i, none, ""⟩, fun _ => rfl⟩

def groupTable : Table SecurityGroup (·.id) := ⟨fun i => { id := some i }, fun _ => rfl⟩

-- a domain in a subnet that is not in the database
def domain (subnetId : String) : Domain subnetTable.Record groupTable.Record where
  domainName := some "logs"
  subnets := some [⟨⟨none, some subnetId, "us-east-1"⟩, holds_of_none rfl⟩]
  securityGroups := some []
  region := "us-east-1"

-- a repeated subnet, unset lists, no attributes, and repositories and subnets without keys
theorem one_sided_comparisons :
    (ServiceMapper.equals (service (some ["subnet-1", "subnet-1"])) (service (some ["subnet-1", "subnet-2"])) =
        true ∧
      ServiceMapper.equals (service (some ["subnet-1", "subnet-2"])) (service (some ["subnet-1", "subnet-1"])) =
        false) ∧
    ServiceMapper.equals (service none) (service none) = false ∧
    LoadBalancerMapper.equals balancer balancer = false ∧
    (TaskDefinitionMapper.equals (task "app") (task "web") = .ok true ∧
      ¬ SameBy (fun c => defined c.1) (task "app").containerDefinitions (task "web").containerDefinitions) ∧
    DomainMapper.equals ascii (domain "subnet-1") (domain "subnet-2") = true ∧
    ¬ DomainMapper.Same (domain "subnet-1") (domain "subnet-2") := by
  refine ⟨⟨by decide, by decide⟩, by decide, by decide, ⟨by decide, fun h => ?_⟩, by decide, fun h => ?_⟩
  · have hdefined := List.singleton_perm_singleton.mp h
    have hnames := (Prod.mk.inj (Prod.mk.inj hdefined).2).2
    exact absurd hnames (by decide)
  · have hsubnets := List.singleton_perm_singleton.mp h.1
    exact absurd hsubnets (by decide)

end Mappers

end Iasql.ListEquals
