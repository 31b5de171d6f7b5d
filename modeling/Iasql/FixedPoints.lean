import Iasql.DomainUpdates
import Iasql.EndpointUpdates
import Iasql.InstanceUpdates
import Iasql.TopicUpdates

namespace Iasql.FixedPoints

open GeneratedKeys Settling Tags
open Edits (State)

section Pairs

variable (subnetRows : Table Instances.Subnet (·.id)) (groupRows : Table SecurityGroups.SecurityGroup (·.id))
  (endpointRows : Table Endpoints.Subnet (·.id))

-- what the updates find in the database and in AWS, whose calls succeed
structure Setting where
  reads : Instances.Reads
  service : Instances.Service
  volumes : Instances.Volumes
  power : Instances.Power
  attachments : Instances.Attachments
  succeeds : Instances.Succeeds service volumes power attachments
  lower : CanonicalPolicy.LowerCase
  domains : OpenSearch.Lookups subnetRows groupRows
  endpoints : Endpoints.Lookups endpointRows
  endpointService : Endpoints.Service

-- an entity of the database with what AWS has, and the record that is read of it
inductive Pair where
  | topic (s : State Sns.AwsTopic Sns.Topic) (c : Sns.Topic)
  | instance' (s : State (Dict String Instances.AwsInstance) Instances.Instance) (c : Instances.Instance)
  | domain (s : State OpenSearch.AwsDomain (OpenSearch.Domain subnetRows.Record groupRows.Record))
      (c : OpenSearch.Domain subnetRows.Record groupRows.Record)
  | endpointInterface (s : Endpoints.Sides) (c : Endpoints.EndpointInterface)

variable {subnetRows : Table Instances.Subnet (·.id)} {groupRows : Table SecurityGroups.SecurityGroup (·.id)}
  {endpointRows : Table Endpoints.Subnet (·.id)} (w : Setting subnetRows groupRows endpointRows)

def Setting.instances : Sync (State (Dict String Instances.AwsInstance) Instances.Instance) Instances.Instance :=
  Instances.sync w.reads w.service w.volumes w.power w.attachments

-- both have the id of the entity, and equals is false
def Pair.Unequal : Pair subnetRows groupRows → Prop
  | topic s c => Sns.sync.Differs s c
  | instance' s c => w.instances.Differs s c ∧ c.instanceId = s.row.instanceId
  | domain s c => (OpenSearch.sync w.lower w.domains).Differs s c
  | endpointInterface s c =>
    (Endpoints.sync w.lower w.endpoints w.endpointService).Differs s c ∧ Endpoints.Stored endpointRows s.row

def Pair.Settles : Pair subnetRows groupRows → Prop
  | topic s _ => Sns.sync.Settles s
  | instance' s _ => w.instances.Settles s
  | domain s _ => (OpenSearch.sync w.lower w.domains).Settles s
  | endpointInterface s _ => (Endpoints.sync w.lower w.endpoints w.endpointService).Settles s

-- every edit of the entity is either pushed or undone
def Pair.Reaches : Pair subnetRows groupRows → Prop
  | topic s c => ¬ Sns.Stuck s.row c
  | instance' s c => Instances.Reaches w.reads w.volumes s.row c
  | domain s c => OpenSearch.Reaches w.lower w.domains s.row c
  | endpointInterface s c => Endpoints.Reaches w.lower w.endpoints w.endpointService s.row c

theorem updates_settle_iff (p : Pair subnetRows groupRows) (h : p.Unequal w) : p.Settles w ↔ p.Reaches w := by
  cases p with
  | topic s c => exact Sns.settles_iff h
  | instance' s c => exact Instances.settles_iff w.succeeds h.1 h.2
  | domain s c => exact OpenSearch.settles_iff h
  | endpointInterface s c => exact Endpoints.settles_iff h.1 h.2

end Pairs

section Concrete

-- longer than every id that is taken
def freshId (ids : List String) : String := ids.foldr (· ++ ·) "" ++ "i"

theorem length_le_joined {ids : List String} {id : String} (h : id ∈ ids) :
    id.length ≤ (ids.foldr (· ++ ·) "").length := by
  induction ids with
  | nil => cases h
  | cons first ids ih =>
    rw [List.foldr_cons, String.length_append]
    rcases List.mem_cons.mp h with rfl | hid
    · exact Nat.le_add_right _ _
    · exact (ih hid).trans (Nat.le_add_left _ _)

theorem length_freshId (ids : List String) : (freshId ids).length = (ids.foldr (· ++ ·) "").length + 1 :=
  String.length_append _ _

theorem freshId_ne (ids : List String) : freshId ids ≠ "" := by
  intro hempty
  have hlength := length_freshId ids
  rw [hempty] at hlength
  cases hlength

theorem get?_freshId {ν : Type} (d : Dict String ν) : d.get? (freshId d.keys) = none := by
  rw [Dict.get?_eq_none]
  intro htaken
  have hle := length_le_joined htaken
  rw [length_freshId] at hle
  exact absurd hle (Nat.not_succ_le_self _)

def noRows : Table Endpoints.Subnet (·.id) := ⟨fun i => ⟨some i, none⟩, fun _ => rfl⟩

def denyAll : CanonicalPolicy.Policy := ⟨none, .many [], AwsDiff.js "2012-10-17"⟩

-- an account with one VPC, in which every call succeeds
def account : Setting ListEquals.subnetTable ListEquals.groupTable noRows where
  reads := ⟨["us-east-1"], fun _ _ => none, fun _ => none, fun _ _ => none⟩
  service :=
    { runInstances := fun instances _ => .ok (freshId instances.keys)
      imageId := id
      securityGroupIds := []
      subnetId := "subnet-1" }
  volumes := ⟨fun _ => .ok (), fun _ _ => .ok ()⟩
  power := ⟨fun _ => .ok (), fun _ _ => .ok (), fun _ => .ok ()⟩
  attachments := ⟨fun _ => .ok (), fun _ _ => .ok ()⟩
  succeeds :=
    { start := fun _ => rfl
      stop := fun _ _ => rfl
      terminate := fun _ => rfl
      run := fun instances _ => ⟨_, rfl, freshId_ne _, get?_freshId instances⟩
      synchronise := fun _ _ => rfl
      removeMappings := fun _ => rfl
      reregister := fun _ _ => rfl }
  lower := CanonicalPolicy.ascii
  domains := ⟨fun _ => none, nofun, fun _ => [], fun _ => []⟩
  endpoints := ⟨fun vpcId region => some { vpcId := some vpcId, region }, fun _ _ => none, nofun⟩
  endpointService :=
    { region := Edit.usEast
      defaultPolicy := some denyAll
      newId := fun endpoints => freshId endpoints.keys
      newId_ne := fun _ => freshId_ne _
      newId_fresh := get?_freshId }

def topicArn : String := "arn:aws:sns:us-east-1:1:alerts"

def alerts : Sns.AwsTopic := { dataProtectionPolicy := some "\x7b\x7d" }

-- a topic as it is read, with its row edited
def editedTopic (edit : Sns.Topic → Sns.Topic) : Pair ListEquals.subnetTable ListEquals.groupTable :=
  .topic ⟨alerts, edit (Sns.mapped alerts topicArn "us-east-1")⟩ (Sns.mapped alerts topicArn "us-east-1")

theorem editedTopic_unequal {edit : Sns.Topic → Sns.Topic}
    (harn : ∀ t, (edit t).arn = t.arn ∧ (edit t).region = t.region)
    (h : Sns.equals (edit (Sns.mapped alerts topicArn "us-east-1")) (Sns.mapped alerts topicArn "us-east-1") = false) :
    (editedTopic edit).Unequal account := by
  obtain ⟨hkept, hregion⟩ := harn (Sns.mapped alerts topicArn "us-east-1")
  refine ⟨?_, h⟩
  change Sns.topicMapper alerts ((edit _).arn.getD "") (edit _).region = _
  rw [hkept, hregion]
  rfl

-- a display name that is given is pushed
theorem updates_settle_named :
    (editedTopic fun t => { t with column := Function.update t.column .displayName (some "Alerts") }).Settles
      account := by
  refine (updates_settle_iff account _ ?_).mpr ?_
  · exact editedTopic_unequal (fun _ => ⟨rfl, rfl⟩) rfl
  · intro hstuck
    have hname := congrFun hstuck.column .displayName
    cases hname

def web : Instances.AwsInstance where
  instanceId := some "i-1"
  tags := Dict.ofList [("Name", "web")]
  imageId := some "ami-1"
  instanceType := some "t2.micro"

def webRecord : Instances.Instance := Instances.mapped account.reads web "us-east-1"

-- the tags are emptied
def untagged : Pair ListEquals.subnetTable ListEquals.groupTable :=
  .instance' ⟨Dict.set ∅ "i-1" web, { webRecord with tags := none }⟩ webRecord

def logsDomain : OpenSearch.AwsDomain where
  domainName := some "logs"
  instanceType := some "m5.large.search"
  autoTuneState := some "ENABLED"
  accessPolicies := .ok denyAll

def logsRecord : OpenSearch.Domain ListEquals.subnetTable.Record ListEquals.groupTable.Record :=
  account.domains.record logsDomain "us-east-1" denyAll

-- three master nodes are asked for
def mastered : Pair ListEquals.subnetTable ListEquals.groupTable :=
  .domain ⟨logsDomain, { logsRecord with dedicatedMasterCount := some 3 }⟩ logsRecord

def logsEndpoint : Endpoints.AwsVpcEndpoint where
  serviceName := some "com.amazonaws.us-east-1.logs"
  vpcId := some "vpc-1"
  policyDocument := some denyAll
  state := some "available"

def endpointRecord : Endpoints.EndpointInterface :=
  Endpoints.mapped account.endpoints "vpce-1" logsEndpoint "us-east-1" .logs
    { vpcId := some "vpc-1", region := "us-east-1" }

-- the policy is emptied
def unrestricted : Pair ListEquals.subnetTable ListEquals.groupTable :=
  .endpointInterface ⟨Dict.set ∅ "vpce-1" logsEndpoint, { endpointRecord with policy := none }⟩ endpointRecord

-- a policy, tags and a policy are emptied, and a count is set
theorem updates_spin :
    ((editedTopic fun t => { t with dataProtectionPolicy := none }).Unequal account ∧
        ¬ (editedTopic fun t => { t with dataProtectionPolicy := none }).Settles account) ∧
      (untagged.Unequal account ∧ ¬ untagged.Settles account) ∧
      (mastered.Unequal account ∧ ¬ mastered.Settles account) ∧
      (unrestricted.Unequal account ∧ ¬ unrestricted.Settles account) := by
  have htopic : (editedTopic fun t => { t with dataProtectionPolicy := none }).Unequal account :=
    editedTopic_unequal (fun _ => ⟨rfl, rfl⟩) rfl
  have hinstance : untagged.Unequal account := by
    refine ⟨⟨Instances.read_iff.mpr ⟨web, Dict.get?_set_self, by decide, ?_⟩, rfl⟩, rfl⟩
    exact Instances.mapped_iff.mpr ⟨⟨rfl, rfl⟩, rfl⟩
  have hdomain : mastered.Unequal account := by
    refine ⟨?_, rfl⟩
    change account.domains.domain logsDomain "us-east-1" = some logsRecord
    exact OpenSearch.domain_iff.mpr ⟨rfl, denyAll, rfl, rfl⟩
  have hendpoint : unrestricted.Unequal account := by
    refine ⟨⟨Endpoints.read_iff.mpr ⟨logsEndpoint, Dict.get?_set_self, rfl, ?_⟩, rfl⟩, nofun, .nil⟩
    exact Endpoints.mapper_iff.mpr ⟨⟨rfl, by decide⟩, .logs, _, by decide, rfl, rfl⟩
  refine ⟨⟨htopic, fun h => ?_⟩, ⟨hinstance, fun h => ?_⟩, ⟨hdomain, fun h => ?_⟩, ⟨hendpoint, fun h => ?_⟩⟩
  · exact (Sns.settles_iff htopic).mp h ⟨rfl, rfl, rfl⟩
  · have hreaches := (Instances.settles_iff account.succeeds hinstance.1 hinstance.2).mp h
    rw [Instances.Reaches, if_pos (by decide)] at hreaches
    rcases hreaches.tags with hsame | ⟨tags, hset, -⟩
    · cases hsame
    · cases hset
  · have hreaches := (OpenSearch.settles_iff hdomain).mp h
    cases hreaches.dedicatedMasterCount
  · have hreaches := (Endpoints.settles_iff hendpoint.1 hendpoint.2).mp h
    rw [Endpoints.Reaches, if_neg (by decide), if_pos (by decide)] at hreaches
    rcases hreaches.policy with hsame | hset | hdefault
    · cases hsame
    · cases hset
    · cases hdefault

end Concrete

end Iasql.FixedPoints
