import Iasql.IsEqual
import Iasql.PolicyRewrites
import Iasql.Roles
import Iasql.SecurityGroups
import Iasql.Tags

namespace Iasql

open Aws AwsDiff

section Detection

variable {E : Type} {equals : E → E → Bool} {same : E → E → Prop} {replaces : E → E → Bool} {d c : E}
  {p q : Prop}

-- for a record d of the database and c of the cloud: equal records ask AWS for the same, and no
-- record that is to be replaced is equal
def Detects (equals : E → E → Bool) (same : E → E → Prop) (replaces : E → E → Bool) (d c : E) : Prop :=
  (equals d c = true → same d c) ∧ (replaces c d = true → equals d c = false)

-- updateOrReplace where a mapper defines none
def neverReplaces (_ _ : E) : Bool := false

theorem detects_iff (hequals : equals d c = true ↔ p) (hsame : p → (same d c ↔ q)) :
    Detects equals same neverReplaces d c ↔ (p → q) := by
  rw [Detects, hequals]
  constructor
  · exact fun h hp => (hsame hp).mp (h.1 hp)
  · exact fun h => ⟨fun hp => (hsame hp).mpr (h hp), nofun⟩

end Detection

namespace Codepipeline

structure EncryptionKey where
  id : Option String
  type : Option String
deriving DecidableEq

structure ArtifactStore where
  location : Option String
  type : Option String
  encryptionKey : Option EncryptionKey := none
deriving DecidableEq

structure PipelineDeclaration where
  id : Option Nat := none
  name : String
  artifactStore : ArtifactStore
  serviceRole : Option Roles.IamRole
  stages : Option Value
  region : String

def PipelineDeclaration.roleArn (e : PipelineDeclaration) : Option String := e.serviceRole.bind (·.arn)

-- _.pickBy(stages, _.identity) keeps the elements that are not falsy
def truthyJson : Json → Bool
  | .null | .bool false | .str [] => false
  | .num n => n ≠ 0
  | _ => true

def pickBy (stages : Option Value) : Json :=
  .obj (((stages.map (·.json)).elim [] entries).filter fun p => p.2.any truthyJson)

-- both sides are taken from the first record
def equals (a b : PipelineDeclaration) : Bool :=
  let stagesA := pickBy a.stages
  let stagesB := pickBy a.stages
  a.roleArn == b.roleArn && a.artifactStore.location == b.artifactStore.location &&
    a.artifactStore.type == b.artifactStore.type && isEqual stagesA stagesB

structure CreatePipeline where
  name : String
  roleArn : Option String
  artifactStore : ArtifactStore
  stages : Option Value

def createInput (pd : PipelineDeclaration) : CreatePipeline where
  name := pd.name
  roleArn := pd.roleArn
  artifactStore := pd.artifactStore
  stages := pd.stages

def Same (d c : PipelineDeclaration) : Prop :=
  { createInput d with stages := c.stages } = createInput c ∧ sameColumn d.stages c.stages = true

variable {d c : PipelineDeclaration}

theorem distinct_pickBy (stages : Option Value) : (pickBy stages).distinctKeys = true := by
  cases stages with
  | none => rfl
  | some v =>
    refine (Bool.and_eq_true _ _).mpr ⟨decide_eq_true ?_, distinctFields_iff.mpr ?_⟩
    · exact (nodup_keys v.distinct).sublist (List.filter_sublist.map _)
    · exact fun key w hw => distinct_of_mem v.distinct (List.mem_of_mem_filter hw)

def Compared (d c : PipelineDeclaration) : Prop :=
  d.roleArn = c.roleArn ∧ d.artifactStore.location = c.artifactStore.location ∧
    d.artifactStore.type = c.artifactStore.type

-- the columns that are sent and not compared
def Agrees (d c : PipelineDeclaration) : Prop :=
  d.name = c.name ∧ d.artifactStore.encryptionKey = c.artifactStore.encryptionKey ∧
    sameColumn d.stages c.stages = true

theorem equals_iff : equals d c = true ↔ Compared d c := by
  simp [equals, Compared, isEqual_self _ (distinct_pickBy d.stages), and_assoc]

theorem detects_iff : Detects equals Same neverReplaces d c ↔ (Compared d c → Agrees d c) := by
  refine Iasql.detects_iff equals_iff fun ⟨hrole, hlocation, htype⟩ => ?_
  have hstore : d.artifactStore = c.artifactStore ↔
      d.artifactStore.encryptionKey = c.artifactStore.encryptionKey := by
    refine ⟨congrArg _, fun hkey => ?_⟩
    cases hd : d.artifactStore
    cases hc : c.artifactStore
    simp_all
  simp [Same, Agrees, createInput, hrole, hstore, and_assoc]

end Codepipeline

namespace Cloudwatch

inductive ComparisonOperatorEnum where
  | greaterThanOrEqualToThreshold | greaterThanThreshold | greaterThanUpperThreshold
  | lessThanLowerOrGreaterThanUpperThreshold | lessThanLowerThreshold
  | lessThanOrEqualToThreshold | lessThanThreshold
deriving DecidableEq

inductive EvaluateLowSampleCountPercentileEnum where
  | evaluate | ignore
deriving DecidableEq

inductive StatisticEnum where
  | average | maximum | minimum | sampleCount | sum
deriving DecidableEq

inductive TreatMissingDataEnum where
  | breaching | notBreaching | ignore | missing
deriving DecidableEq

inductive Quantity where
  | bits | bytes | count | gigabits | gigabytes | kilobits | kilobytes | megabits | megabytes
  | terabits | terabytes
deriving DecidableEq

inductive StandardUnitEnum where
  | of (q : Quantity)
  | perSecond (q : Quantity)
  | microseconds | milliseconds | none | percent | seconds
deriving DecidableEq

structure MetricAlarm where
  id : Option Nat := none
  alarmName : String
  alarmArn : Option String := none
  alarmDescription : Option String := none
  actionsEnabled : Option Bool := none
  alarmActions : Option (List String) := none
  comparisonOperator : Option ComparisonOperatorEnum := none
  datapointsToAlarm : Option Int := none
  dimensions : Option Value := none
  evaluateLowSampleCountPercentile : Option EvaluateLowSampleCountPercentileEnum := none
  evaluationPeriods : Option Int := none
  extendedStatistic : Option String := none
  insufficientDataActions : Option (List String) := none
  metricName : Option String := none
  metrics : Option Value := none
  metricNamespace : Option String := none
  okActions : Option (List String) := none
  period : Option Int := none
  statistic : Option StatisticEnum := none
  threshold : Option ℚ := none
  thresholdMetricId : Option String := none
  treatMissingData : Option TreatMissingDataEnum := none
  unit : Option StandardUnitEnum := none
  region : String

def equals (a b : MetricAlarm) : Bool :=
  a.actionsEnabled == b.actionsEnabled && a.actionsEnabled == b.actionsEnabled &&
    a.alarmDescription == b.alarmDescription && a.comparisonOperator == b.comparisonOperator &&
    a.datapointsToAlarm == b.datapointsToAlarm && sameColumn a.dimensions b.dimensions &&
    a.evaluateLowSampleCountPercentile == b.evaluateLowSampleCountPercentile &&
    a.evaluationPeriods == b.evaluationPeriods && a.extendedStatistic == b.extendedStatistic &&
    a.insufficientDataActions == b.insufficientDataActions && a.metricName == b.metricName &&
    sameColumn a.metrics b.metrics && a.metricNamespace == b.metricNamespace && a.okActions == b.okActions &&
    a.period == b.period && a.statistic == b.statistic && a.threshold == b.threshold &&
    a.thresholdMetricId == b.thresholdMetricId && a.treatMissingData == b.treatMissingData &&
    a.alarmArn == b.alarmArn

structure PutMetricAlarm where
  actionsEnabled : Option Bool
  alarmActions : Option (List String)
  alarmDescription : Option String
  alarmName : String
  comparisonOperator : Option ComparisonOperatorEnum
  datapointsToAlarm : Option Int
  dimensions : Option Value
  evaluateLowSampleCountPercentile : Option EvaluateLowSampleCountPercentileEnum
  evaluationPeriods : Option Int
  extendedStatistic : Option String
  insufficientDataActions : Option (List String)
  metricName : Option String
  metrics : Option Value
  metricNamespace : Option String
  okActions : Option (List String)
  period : Option Int
  statistic : Option StatisticEnum
  threshold : Option ℚ
  thresholdMetricId : Option String
  treatMissingData : Option TreatMissingDataEnum
  unit : Option StandardUnitEnum

-- create and update build the same
def putInput (m : MetricAlarm) : PutMetricAlarm where
  actionsEnabled := m.actionsEnabled
  alarmActions := m.alarmActions
  alarmDescription := m.alarmDescription
  alarmName := m.alarmName
  comparisonOperator := m.comparisonOperator
  datapointsToAlarm := m.datapointsToAlarm
  dimensions := m.dimensions
  evaluateLowSampleCountPercentile := m.evaluateLowSampleCountPercentile
  evaluationPeriods := m.evaluationPeriods
  extendedStatistic := m.extendedStatistic
  insufficientDataActions := m.insufficientDataActions
  metricName := m.metricName
  metrics := m.metrics
  metricNamespace := m.metricNamespace
  okActions := m.okActions
  period := m.period
  statistic := m.statistic
  threshold := m.threshold
  thresholdMetricId := m.thresholdMetricId
  treatMissingData := m.treatMissingData
  unit := m.unit

def Same (d c : MetricAlarm) : Prop :=
  { putInput d with dimensions := c.dimensions, metrics := c.metrics } = putInput c ∧
    sameColumn d.dimensions c.dimensions = true ∧ sameColumn d.metrics c.metrics = true

-- nothing differs but the columns that are not compared
def Compared (d c : MetricAlarm) : Prop :=
  { d with
    id := c.id
    alarmName := c.alarmName
    alarmActions := c.alarmActions
    dimensions := c.dimensions
    metrics := c.metrics
    unit := c.unit
    region := c.region } = c ∧
    sameColumn d.dimensions c.dimensions = true ∧ sameColumn d.metrics c.metrics = true

-- the columns that are sent and not compared
def Agrees (d c : MetricAlarm) : Prop :=
  d.alarmName = c.alarmName ∧ d.alarmActions = c.alarmActions ∧ d.unit = c.unit

variable {d c : MetricAlarm}

theorem equals_iff : equals d c = true ↔ Compared d c := by
  rcases d with ⟨⟩
  rcases c with ⟨⟩
  simp only [equals, Compared, Bool.and_eq_true, beq_iff_eq, MetricAlarm.mk.injEq]
  tauto

theorem detects_iff : Detects equals Same neverReplaces d c ↔ (Compared d c → Agrees d c) := by
  refine Iasql.detects_iff equals_iff fun h => ?_
  rcases d with ⟨⟩
  rcases c with ⟨⟩
  simp only [Compared, MetricAlarm.mk.injEq] at h
  simp only [Same, Agrees, putInput, PutMetricAlarm.mk.injEq]
  tauto

end Cloudwatch

namespace Cloudfront

-- an object, whose fields can be undefined
abbrev JsObject := Dict JsString (Option Value)

structure Certificate where
  arn : Option String
deriving DecidableEq

-- the settings are the other fields of the json value
structure Origin where
  id : Option String
  domainName : Option String
  settings : JsObject := ∅

structure Distribution where
  id : Option Nat := none
  distributionId : Option String := none
  domainName : Option String := none
  callerReference : Option String := none
  comment : Option String := none
  enabled : Option Bool := none
  isIPV6Enabled : Option Bool := none
  webACLId : Option String := none
  defaultCacheBehavior : JsObject
  origins : List Origin
  eTag : Option String := none
  status : Option String := none
  customSslCertificate : Option Certificate := none
  alternateDomainNames : Option (List String) := none

-- Object.fromEntries of the ids and domain names
def domainNames (origins : List Origin) : Dict String (Option String) :=
  .ofList (origins.map fun o => (o.id.getD "undefined", o.domainName))

def equals (a b : Distribution) : Bool :=
  a.callerReference == b.callerReference && a.comment == b.comment && a.enabled == b.enabled &&
    a.isIPV6Enabled == b.isIPV6Enabled && a.webACLId == b.webACLId &&
    Dict.isEqualBy sameColumn a.defaultCacheBehavior b.defaultCacheBehavior &&
    Dict.isEqualBy (· == ·) (domainNames a.origins) (domainNames b.origins) &&
    a.eTag == b.eTag && a.status == b.status && a.domainName == b.domainName

section Requests

structure ViewerCertificate where
  cloudFrontDefaultCertificate : Bool
  acmCertificateArn : Option String := none
  minimumProtocolVersion : String := "TLSv1.2_2021"
  sslSupportMethod : String := "sni-only"
deriving DecidableEq

-- rest: what an update takes over from the configuration as it is
structure DistributionConfig where
  callerReference : Option String
  comment : Option String
  enabled : Option Bool
  isIPV6Enabled : Option Bool
  webACLId : Option String
  origins : List Origin
  defaultCacheBehavior : JsObject
  aliases : List String
  viewerCertificate : Option ViewerCertificate
  rest : JsObject := ∅

def Distribution.certificateArn (e : Distribution) : Option String :=
  (e.customSslCertificate.bind (·.arn)).filter (· != "")

def customCertificate (acmCertificateArn : String) : ViewerCertificate :=
  { cloudFrontDefaultCertificate := false, acmCertificateArn := some acmCertificateArn }

def createConfig (e : Distribution) : DistributionConfig where
  callerReference := e.callerReference
  comment := e.comment
  enabled := e.enabled
  isIPV6Enabled := e.isIPV6Enabled
  webACLId := e.webACLId
  origins := e.origins
  defaultCacheBehavior := e.defaultCacheBehavior
  aliases := e.alternateDomainNames.getD []
  viewerCertificate := e.certificateArn.map customCertificate

def field (o : JsObject) (key : String) : Option Value := (o.get? (js key)).join

def mergeBehavior (current behavior : JsObject) : JsObject :=
  ((current.set (js "CachePolicyId") (field behavior "CachePolicyId")).set (js "TargetOriginId")
    (field behavior "TargetOriginId")).set (js "ViewerProtocolPolicy")
      (field behavior "ViewerProtocolPolicy")

-- getDistributionConfigForUpdate, given the configuration as it is
def updateConfig (current : DistributionConfig) (e : Distribution) : DistributionConfig where
  callerReference := e.callerReference
  comment := e.comment
  enabled := e.enabled
  isIPV6Enabled := e.isIPV6Enabled
  webACLId := e.webACLId
  origins := e.origins
  defaultCacheBehavior := mergeBehavior current.defaultCacheBehavior e.defaultCacheBehavior
  aliases := e.alternateDomainNames.getD []
  viewerCertificate :=
    some (e.certificateArn.elim { cloudFrontDefaultCertificate := true } customCertificate)
  rest := current.rest

structure UpdateDistribution where
  id : Option String
  distributionConfig : DistributionConfig
  ifMatch : Option String

-- current: the configuration that AWS has under an id
def updateInput (current : Option String → DistributionConfig) (e : Distribution) :
    UpdateDistribution where
  id := e.distributionId
  distributionConfig := updateConfig (current e.distributionId) e
  ifMatch := e.eTag

structure Origin.Same (o p : Origin) : Prop where
  id : o.id = p.id
  domainName : o.domainName = p.domainName
  settings : Dict.isEqualBy sameColumn o.settings p.settings = true

def SameConfig (p q : DistributionConfig) : Prop :=
  { p with
    origins := q.origins
    defaultCacheBehavior := q.defaultCacheBehavior
    rest := q.rest } = q ∧
    List.Forall₂ Origin.Same p.origins q.origins ∧
    Dict.isEqualBy sameColumn p.defaultCacheBehavior q.defaultCacheBehavior = true ∧
    Dict.isEqualBy sameColumn p.rest q.rest = true

def SameUpdate (p q : UpdateDistribution) : Prop :=
  p.id = q.id ∧ SameConfig p.distributionConfig q.distributionConfig ∧ p.ifMatch = q.ifMatch

def Same (current : Option String → DistributionConfig) (d c : Distribution) : Prop :=
  SameConfig (createConfig d) (createConfig c) ∧ SameUpdate (updateInput current d) (updateInput current c)

end Requests

variable {d c : Distribution} {current : Option String → DistributionConfig}

def Compared (d c : Distribution) : Prop :=
  { d with
    id := c.id
    distributionId := c.distributionId
    defaultCacheBehavior := c.defaultCacheBehavior
    origins := c.origins
    customSslCertificate := c.customSslCertificate
    alternateDomainNames := c.alternateDomainNames } = c ∧
    Dict.isEqualBy sameColumn d.defaultCacheBehavior c.defaultCacheBehavior = true ∧
    Dict.isEqualBy (· == ·) (domainNames d.origins) (domainNames c.origins) = true

theorem equals_iff : equals d c = true ↔ Compared d c := by
  rcases d with ⟨⟩
  rcases c with ⟨⟩
  simp only [equals, Compared, Bool.and_eq_true, beq_iff_eq, Distribution.mk.injEq]
  tauto

theorem sameColumn_field {o p : JsObject} (h : Dict.isEqualBy sameColumn o p = true) (key : String) :
    sameColumn (field o key) (field p key) = true := by
  have hkey := Dict.isEqualBy_iff.mp h (js key)
  rw [field, field]
  generalize o.get? (js key) = v at hkey ⊢
  generalize p.get? (js key) = w at hkey ⊢
  cases hkey with
  | none => rfl
  | some hr => exact hr

theorem mergeBehavior_same {o p : JsObject} (b : JsObject) (h : Dict.isEqualBy sameColumn o p = true) :
    Dict.isEqualBy sameColumn (mergeBehavior b o) (mergeBehavior b p) = true :=
  Dict.isEqualBy_set (Dict.isEqualBy_set (Dict.isEqualBy_set (Dict.isEqualBy_self sameColumn_self b)
    (sameColumn_field h _)) (sameColumn_field h _)) (sameColumn_field h _)

-- the columns that are sent and not compared, or compared in part
structure Agrees (d c : Distribution) : Prop where
  distributionId : d.distributionId = c.distributionId
  origins : List.Forall₂ Origin.Same d.origins c.origins
  alternateDomainNames : d.alternateDomainNames.getD [] = c.alternateDomainNames.getD []
  certificate : d.certificateArn = c.certificateArn

theorem customCertificate_injective : Function.Injective customCertificate := by
  intro a b h
  simpa [customCertificate] using h

theorem detects_iff :
    Detects equals (Same current) neverReplaces d c ↔ (Compared d c → Agrees d c) := by
  refine Iasql.detects_iff equals_iff fun ⟨hcolumns, hbehavior, _⟩ => ?_
  have hcaller : d.callerReference = c.callerReference := by rw [← hcolumns]
  have hcomment : d.comment = c.comment := by rw [← hcolumns]
  have henabled : d.enabled = c.enabled := by rw [← hcolumns]
  have hipv6 : d.isIPV6Enabled = c.isIPV6Enabled := by rw [← hcolumns]
  have hacl : d.webACLId = c.webACLId := by rw [← hcolumns]
  have hcreate : SameConfig (createConfig d) (createConfig c) ↔
      List.Forall₂ Origin.Same d.origins c.origins ∧
        d.alternateDomainNames.getD [] = c.alternateDomainNames.getD [] ∧
        d.certificateArn = c.certificateArn := by
    have hcertificate := (Option.map_injective customCertificate_injective).eq_iff
      (a := d.certificateArn) (b := c.certificateArn)
    simp only [SameConfig, createConfig, hcaller, hcomment, henabled, hipv6, hacl, hcertificate,
      hbehavior, Dict.isEqualBy_self sameColumn_self, DistributionConfig.mk.injEq, true_and, and_true]
    tauto
  rw [Same, hcreate]
  constructor
  · rintro ⟨⟨horigins, hnames, hcertificate⟩, hid, -⟩
    exact ⟨hid, horigins, hnames, hcertificate⟩
  · intro h
    have heTag : d.eTag = c.eTag := by rw [← hcolumns]
    refine ⟨⟨h.origins, h.alternateDomainNames, h.certificate⟩, h.distributionId, ⟨?_, h.origins, ?_, ?_⟩,
      heTag⟩
    · simp only [updateInput, updateConfig, hcaller, hcomment, henabled, hipv6, hacl,
        h.alternateDomainNames, h.certificate]
    · rw [updateInput, updateInput, h.distributionId]
      exact mergeBehavior_same _ hbehavior
    · rw [updateInput, updateInput, h.distributionId]
      exact Dict.isEqualBy_self sameColumn_self _

end Cloudfront

namespace Endpoints

open CanonicalPolicy SecurityGroups Tags

inductive EndpointInterfaceService where
  | s3 | s3Global | apiGateway | rds | logs | codebuild | codedeploy | codepipeline | ec2 | ecr | ecs
  | elb | elasticache | lambda | memorydb
deriving DecidableEq

def EndpointInterfaceService.text : EndpointInterfaceService → String
  | s3 => "s3"
  | s3Global => "s3-global.accesspoint"
  | apiGateway => "execute-api"
  | rds => "rds"
  | logs => "logs"
  | codebuild => "codebuild"
  | codedeploy => "codedeploy"
  | codepipeline => "codepipeline"
  | ec2 => "ec2"
  | ecr => "ecr"
  | ecs => "ecs"
  | elb => "elasticloadbalancing"
  | elasticache => "elasticache"
  | lambda => "lambda"
  | memorydb => "memory-db"

inductive DnsRecordIpType where
  | dualstack | ipv4 | ipv6 | serviceDefined
deriving DecidableEq

structure Subnet where
  id : Option Nat := none
  subnetId : Option String
deriving DecidableEq

structure EndpointInterface where
  id : Option Nat := none
  vpcEndpointId : Option String := none
  service : EndpointInterfaceService
  policy : Option Policy := none
  vpc : Option Vpc
  state : Option String := none
  subnets : List Subnet := []
  privateDnsEnabled : Option Bool := none
  dnsNameRecordType : Option DnsRecordIpType := none
  tags : Option (Dict String String) := none
  region : String

def EndpointInterface.vpcId (e : EndpointInterface) : Option String := e.vpc.bind (·.vpcId)

def sameSubnets (a b : List Subnet) : Bool :=
  a.length == b.length && a.all fun sa => (b.find? fun sb => sa.id == sb.id).isSome

variable (lower : LowerCase)

def equals (a b : EndpointInterface) : Bool :=
  a.dnsNameRecordType == b.dnsNameRecordType && policiesAreSame lower a.policy b.policy &&
    a.state == b.state && a.vpcId == b.vpcId && sameSubnets a.subnets b.subnets && Vpc.eqTags a.tags b.tags &&
    a.privateDnsEnabled == b.privateDnsEnabled

-- updateOrReplace
def replaces (a b : EndpointInterface) : Bool := !(a.vpcId == b.vpcId && a.service == b.service)

section Requests

def subnetIds (subnets : List Subnet) : List String := subnets.filterMap fun s => s.subnetId.filter (· != "")

structure CreateVpcEndpoint where
  serviceName : String
  vpcId : Option String
  privateDnsEnabled : Option Bool
  dnsRecordIpType : Option DnsRecordIpType
  policyDocument : Option Policy
  subnetIds : List String
  tags : Option (Dict String String)

-- what the client of the region answers: the names of the services, and the subnets of a VPC
structure Region where
  serviceNames : List String
  vpcSubnets : String → List String

variable (aws : Region)

-- no endpoint is created without the name of a service
def Region.serviceName (e : EndpointInterface) : Option String :=
  (aws.serviceNames.find? (includes e.service.text)).filter (· != "")

-- no endpoint is created without the name of a service
def createInput (e : EndpointInterface) : Option CreateVpcEndpoint :=
  (aws.serviceName e).map fun serviceName =>
    { serviceName
      vpcId := e.vpcId
      privateDnsEnabled := e.privateDnsEnabled
      dnsRecordIpType := e.dnsNameRecordType
      policyDocument := e.policy
      subnetIds :=
        if e.subnets.isEmpty then aws.vpcSubnets (e.vpcId.getD "") else Endpoints.subnetIds e.subnets
      tags := e.tags.filter (·.entries ≠ []) }

structure ModifyVpcEndpoint where
  vpcEndpointId : Option String
  policyDocument : Option Policy
  resetPolicy : Bool
  addSubnetIds : List String
  tags : Option (Dict String String)

-- what the requests of an update take from the record of the database
def modifyInput (e : EndpointInterface) : ModifyVpcEndpoint where
  vpcEndpointId := e.vpcEndpointId
  policyDocument := e.policy
  resetPolicy := e.policy.isNone
  addSubnetIds := subnetIds e.subnets
  tags := e.tags

def SameCreate (p q : CreateVpcEndpoint) : Prop :=
  { p with subnetIds := q.subnetIds, tags := q.tags } = q ∧ p.subnetIds.Perm q.subnetIds ∧
    SameTags p.tags q.tags

def SameModify (p q : ModifyVpcEndpoint) : Prop :=
  { p with addSubnetIds := q.addSubnetIds, tags := q.tags } = q ∧ p.addSubnetIds.Perm q.addSubnetIds ∧
    SameTags p.tags q.tags

def Same (d c : EndpointInterface) : Prop :=
  Option.Rel SameCreate (createInput aws d) (createInput aws c) ∧ SameModify (modifyInput d) (modifyInput c)

end Requests

variable {aws : Region} {d c : EndpointInterface}

structure Compared (d c : EndpointInterface) : Prop where
  dnsNameRecordType : d.dnsNameRecordType = c.dnsNameRecordType
  policy : policiesAreSame lower d.policy c.policy = true
  state : d.state = c.state
  vpcId : d.vpcId = c.vpcId
  subnets : sameSubnets d.subnets c.subnets = true
  tags : Vpc.eqTags d.tags c.tags = true
  privateDnsEnabled : d.privateDnsEnabled = c.privateDnsEnabled

-- the columns that are sent and not compared, or not by what is sent
structure Agrees (d c : EndpointInterface) : Prop where
  vpcEndpointId : d.vpcEndpointId = c.vpcEndpointId
  service : d.service = c.service
  policy : d.policy = c.policy
  subnetIds : (subnetIds d.subnets).Perm (subnetIds c.subnets)

variable {lower}

theorem equals_iff : equals lower d c = true ↔ Compared lower d c := by
  simp only [equals, Bool.and_eq_true, beq_iff_eq]
  constructor
  · rintro ⟨⟨⟨⟨⟨⟨hdns, hpolicy⟩, hstate⟩, hvpc⟩, hsubnets⟩, htags⟩, hprivate⟩
    exact ⟨hdns, hpolicy, hstate, hvpc, hsubnets, htags, hprivate⟩
  · exact fun h => ⟨⟨⟨⟨⟨⟨h.dnsNameRecordType, h.policy⟩, h.state⟩, h.vpcId⟩, h.subnets⟩, h.tags⟩,
      h.privateDnsEnabled⟩

theorem bind_filter_entries (a : Option (Dict String String)) (key : String) :
    (a.filter (·.entries ≠ [])).bind (·.get? key) = a.bind (·.get? key) := by
  cases a with
  | none => rfl
  | some a =>
    by_cases ha : a.entries = []
    · have hget : a.get? key = none := Dict.get?_eq_none.mpr (by simp [Dict.keys, OrderedMap.keys, ha])
      simp [Option.filter, ha, hget]
    · simp [Option.filter, ha]

theorem sameCreate_of (hcompared : Compared lower d c) (hagrees : Agrees d c) :
    Option.Rel SameCreate (createInput aws d) (createInput aws c) := by
  have hempty : d.subnets.isEmpty = c.subnets.isEmpty := by
    obtain ⟨hlength, -⟩ := (Bool.and_eq_true _ _).mp hcompared.subnets
    rw [Bool.eq_iff_iff, List.isEmpty_iff_length_eq_zero, List.isEmpty_iff_length_eq_zero,
      beq_iff_eq.mp hlength]
  have hname : aws.serviceName d = aws.serviceName c := by
    rw [Region.serviceName, Region.serviceName, hagrees.service]
  rw [createInput, createInput, hname]
  cases aws.serviceName c with
  | none => exact .none
  | some serviceName =>
    refine .some ⟨?_, ?_, ?_⟩
    · simp only [hcompared.vpcId, hcompared.privateDnsEnabled, hcompared.dnsNameRecordType, hagrees.policy]
    · dsimp only
      rw [hempty, hcompared.vpcId]
      split
      · exact .refl _
      · exact hagrees.subnetIds
    · intro key
      rw [bind_filter_entries, bind_filter_entries]
      exact Vpc.sameTags_of_eqTags hcompared.tags key

theorem detects_iff :
    Detects (equals lower) (Same aws) replaces d c ↔ (Compared lower d c → Agrees d c) := by
  rw [Detects, ← equals_iff]
  constructor
  · rintro ⟨hsame, hreplaces⟩ hequals
    obtain ⟨-, hmodify, hsubnets, -⟩ := hsame hequals
    refine ⟨?_, ?_, ?_, hsubnets⟩
    · exact (congrArg ModifyVpcEndpoint.vpcEndpointId hmodify :)
    · by_contra hservice
      have hreplaced : replaces c d = true := by simp [replaces, Ne.symm hservice]
      exact Bool.false_ne_true ((hreplaces hreplaced).symm.trans hequals)
    · exact (congrArg ModifyVpcEndpoint.policyDocument hmodify :)
  · intro h
    constructor
    · intro hequals
      have hcompared := equals_iff.mp hequals
      have hagrees := h hequals
      refine ⟨sameCreate_of hcompared hagrees, ?_, hagrees.subnetIds, Vpc.sameTags_of_eqTags hcompared.tags⟩
      simp only [modifyInput, hagrees.vpcEndpointId, hagrees.policy]
    · intro hreplaced
      by_contra hne
      have hequals : equals lower d c = true := by simpa using hne
      have hvpc := (equals_iff.mp hequals).vpcId
      simp [replaces, hvpc, (h hequals).service] at hreplaced

end Endpoints

-- a record of the database, and the record of the cloud with its entity id
inductive Edit where
  | pipelineDeclaration (d c : Codepipeline.PipelineDeclaration)
  | metricAlarm (d c : Cloudwatch.MetricAlarm)
  | distribution (d c : Cloudfront.Distribution)
  | endpointInterface (d c : Endpoints.EndpointInterface)

namespace Edit

variable (lower : CanonicalPolicy.LowerCase) (current : Option String → Cloudfront.DistributionConfig)
  (aws : Endpoints.Region)

def Detected : Edit → Prop
  | pipelineDeclaration d c => Detects Codepipeline.equals Codepipeline.Same neverReplaces d c
  | metricAlarm d c => Detects Cloudwatch.equals Cloudwatch.Same neverReplaces d c
  | distribution d c => Detects Cloudfront.equals (Cloudfront.Same current) neverReplaces d c
  | endpointInterface d c => Detects (Endpoints.equals lower) (Endpoints.Same aws) Endpoints.replaces d c

def Compared : Edit → Prop
  | pipelineDeclaration d c => Codepipeline.Compared d c
  | metricAlarm d c => Cloudwatch.Compared d c
  | distribution d c => Cloudfront.Compared d c
  | endpointInterface d c => Endpoints.Compared lower d c

def Agrees : Edit → Prop
  | pipelineDeclaration d c => Codepipeline.Agrees d c
  | metricAlarm d c => Cloudwatch.Agrees d c
  | distribution d c => Cloudfront.Agrees d c
  | endpointInterface d c => Endpoints.Agrees d c

-- an edit is detected unless the records differ in the columns that are not compared alone
theorem detected_iff (e : Edit) :
    e.Detected lower current aws ↔ (e.Compared lower → e.Agrees) := by
  cases e with
  | pipelineDeclaration d c => exact Codepipeline.detects_iff
  | metricAlarm d c => exact Cloudwatch.detects_iff
  | distribution d c => exact Cloudfront.detects_iff
  | endpointInterface d c => exact Endpoints.detects_iff

section Undetected

def pipeline (stages : Option AwsDiff.Value) : Codepipeline.PipelineDeclaration :=
  { name := "build"
    artifactStore := { location := some "artifacts", type := some "S3" }
    serviceRole := none
    stages
    region := "us-east-1" }

def alarm (alarmActions : List String) : Cloudwatch.MetricAlarm :=
  { alarmName := "load"
    alarmActions := some alarmActions
    region := "us-east-1" }

def site (alternateDomainNames : List String) : Cloudfront.Distribution :=
  { distributionId := some "E1"
    defaultCacheBehavior := ∅
    origins := []
    alternateDomainNames := some alternateDomainNames }

def logsEndpoint (service : Endpoints.EndpointInterfaceService) : Endpoints.EndpointInterface :=
  { vpcEndpointId := some "vpce-1"
    service
    vpc := some { vpcId := some "vpc-1", region := "us-east-1" }
    region := "us-east-1" }

def siteConfig : Cloudfront.DistributionConfig :=
  Cloudfront.createConfig (site [])

def usEast : Endpoints.Region where
  serviceNames := ["com.amazonaws.us-east-1.logs", "com.amazonaws.us-east-1.rds"]
  vpcSubnets := fun _ => []

theorem edits_undetected :
    ¬ (pipelineDeclaration (pipeline (some ⟨.arr [], rfl⟩)) (pipeline none)).Detected
        CanonicalPolicy.ascii (fun _ => siteConfig) usEast ∧
      ¬ (metricAlarm (alarm ["arn:aws:sns:us-east-1:1:new"])
        (alarm ["arn:aws:sns:us-east-1:1:old"])).Detected
        CanonicalPolicy.ascii (fun _ => siteConfig) usEast ∧
      ¬ (distribution (site ["example.com"]) (site [])).Detected
        CanonicalPolicy.ascii (fun _ => siteConfig) usEast ∧
      ¬ (endpointInterface (logsEndpoint .logs) (logsEndpoint .rds)).Detected
        CanonicalPolicy.ascii (fun _ => siteConfig) usEast := by
  refine ⟨fun h => ?_, fun h => ?_, fun h => ?_, fun h => ?_⟩
  · have hstages := (Codepipeline.detects_iff.mp h ⟨rfl, rfl, rfl⟩).2.2
    exact absurd hstages (by decide)
  · have hactions := (Cloudwatch.detects_iff.mp h (Cloudwatch.equals_iff.mp (by decide))).2.1
    exact absurd hactions (by decide)
  · have hagrees := Cloudfront.detects_iff.mp h (Cloudfront.equals_iff.mp (by decide))
    exact absurd hagrees.alternateDomainNames (by decide)
  · exact absurd (h.2 (by decide)) (by decide)

end Undetected

end Edit

end Iasql
