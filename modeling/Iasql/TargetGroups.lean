import Iasql.Calculus.Audits
import Iasql.Comparators

namespace Iasql.Elb

open Program Prog Aws SecurityGroups

section Entities

inductive TargetTypeEnum where
  | alb | instances | ip | lambda
deriving DecidableEq

inductive TargetGroupIpAddressTypeEnum where
  | ipv4 | ipv6
deriving DecidableEq

inductive ProtocolEnum where
  | geneve | http | https | tcp | tcpUdp | tls | udp
deriving DecidableEq

inductive ProtocolVersionEnum where
  | grpc | http1 | http2
deriving DecidableEq

-- the columns of a target group whose names begin with healthCheck, and the two thresholds
structure HealthCheck where
  protocol : Option ProtocolEnum := none
  port : Option String := none
  path : Option String := none
  enabled : Option Bool := none
  intervalSeconds : Option Int := none
  timeoutSeconds : Option Int := none
  healthyThresholdCount : Option Int := none
  unhealthyThresholdCount : Option Int := none
deriving DecidableEq

structure TargetGroup where
  id : Option Nat := none
  targetGroupName : String
  targetType : Option TargetTypeEnum := none
  targetGroupArn : Option String := none
  ipAddressType : Option TargetGroupIpAddressTypeEnum := none
  protocol : Option ProtocolEnum := none
  port : Option Int := none
  vpc : Option Vpc := none
  healthCheck : HealthCheck := {}
  protocolVersion : Option ProtocolVersionEnum := none
  region : String
deriving DecidableEq

structure LoadBalancer where
  loadBalancerArn : Option String := none
  region : String
deriving DecidableEq

inductive ActionTypeEnum where
  | forward
deriving DecidableEq

structure Certificate where
  arn : Option String := none
  region : String
deriving DecidableEq

structure Listener where
  id : Option Nat := none
  listenerArn : Option String := none
  loadBalancer : Option LoadBalancer
  port : Int
  protocol : Option ProtocolEnum := none
  actionType : ActionTypeEnum := .forward
  targetGroup : TargetGroup
  sslPolicy : Option String := none
  certificate : Option Certificate := none
deriving DecidableEq

-- a listener has no column of its own for it
def Listener.region (e : Listener) : String := (e.loadBalancer.map (·.region)).getD e.targetGroup.region

inductive Entity where
  | targetGroup (e : TargetGroup)
  | listener (e : Listener)
  | metricAlarm (m : Cloudwatch.MetricAlarm)

def Entity.region : Entity → String
  | targetGroup e => e.region
  | listener e => e.region
  | metricAlarm m => m.region

end Entities

section Calls

-- paginated calls count as one
inductive Op where
  | describeVpcs (vpcId : Option String)
  | describeVpcAttribute (vpcId : String)
  | describeDhcpOptions (dhcpOptionsId : String)
  | createTargetGroup (e : TargetGroup) (vpcId : String)
  | describeTargetGroups (arn : String)
  | modifyTargetGroup (arn : Option String) (healthCheck : HealthCheck)
  | deleteTargetGroup (arn : Option String)
  | createListener (e : Listener)
  | describeListeners (arn : String)
  | modifyListener (e : Listener)
  | deleteListener (arn : Option String)
  | describeCertificate (arn : String)
  | listTagsForCertificate (arn : String)
  | putMetricAlarm (input : Cloudwatch.PutMetricAlarm)

-- the region of the client, and the record on whose behalf the call is made
structure Call where
  client : String
  entity : Entity
  op : Op

abbrev History := List Call

def Routed (c : Call) : Prop := c.client = c.entity.region

instance : DecidablePred Routed := fun c => inferInstanceAs (Decidable (c.client = c.entity.region))

structure AwsVpc where
  vpcId : Option String
  cidrBlock : Option String := none
  isDefault : Bool := false
  dhcpOptionsId : Option String := none

structure AwsTargetGroup where
  targetGroupName : Option String
  targetType : Option TargetTypeEnum := none
  targetGroupArn : Option String := none
  ipAddressType : Option TargetGroupIpAddressTypeEnum := none
  protocol : Option ProtocolEnum := none
  port : Option Int := none
  vpcId : Option String := none
  healthCheck : HealthCheck := {}
  protocolVersion : Option ProtocolVersionEnum := none

inductive AwsActionType where
  | forward | authenticateOidc | authenticateCognito | redirect | fixedResponse
deriving DecidableEq

structure AwsAction where
  type : AwsActionType
  targetGroupArn : Option String := none

structure AwsListener where
  listenerArn : Option String := none
  loadBalancerArn : Option String := none
  port : Option Int := none
  protocol : Option ProtocolEnum := none
  defaultActions : List AwsAction := []
  sslPolicy : Option String := none
  certificates : List (Option String) := []

structure AwsCertificate where
  domainName : Option String := none

-- the region of parseArn, which throws for a text that is no arn
def arnRegion (arn : String) : Option String :=
  match arn.splitOn ":" with
  | "arn" :: _ :: _ :: region :: _ :: _ :: _ => some region
  | _ => none

-- the target groups and certificates of a listener lie in the region of the client that gives it
structure AwsListener.Here (l : AwsListener) (client : String) : Prop where
  targetGroups : ∀ a ∈ l.defaultActions, ∀ arn, a.targetGroupArn = some arn →
    ∀ region, arnRegion arn = some region → region = client
  certificates : ∀ arn, some arn ∈ l.certificates → ∀ region, arnRegion arn = some region → region = client

-- what AWS answers to a call on a client, whatever was called before
structure Provider where
  vpcs : History → String → Op → Except Thrown (List AwsVpc)
  targetGroup : History → String → Op → Except Thrown (Option AwsTargetGroup)
  listener : History → String → Op → Except Thrown (Option AwsListener)
  certificate : History → String → Op → Except Thrown (Option AwsCertificate)
  done : History → String → Op → Except Thrown Unit
  -- the code of an error
  code : Thrown → String
  here : ∀ history client op l, listener history client op = .ok (some l) → l.Here client

theorem listener_nowhere : ∀ (_ : History) (client : String) (_ : Op) (l : AwsListener),
    (.error (.error "ListenerNotFound") : Except Thrown (Option AwsListener)) = .ok (some l) → l.Here client :=
  fun _ _ _ _ h => by cases h

-- what the database has, or the memo of records that were read, and whether it takes a record
structure Known where
  vpc : History → String → String → Option Vpc
  dhcpOptions : History → String → String → Bool
  loadBalancer : String → Option LoadBalancer
  targetGroup : History → String → Option TargetGroup
  certificate : History → String → Option Certificate
  save : History → TargetGroup → Except Thrown Unit

structure Ctx where
  defaultRegion : Option String
  hasCredentials : Bool
  enabledRegions : List String
  aws : Provider
  known : Known

-- calls, and ctx.memo.cloud
structure State where
  calls : History := []
  targetGroups : Dict String TargetGroup := ∅
  listeners : Dict String Listener := ∅
  metricAlarms : Dict String Cloudwatch.MetricAlarm := ∅

variable (ctx : Ctx)

def Ctx.region (selectedRegion : Option String) : String :=
  (selectedRegion.or ctx.defaultRegion).getD "us-east-1"

def getAwsClient (selectedRegion : Option String) : Prog State Thrown String :=
  if ctx.hasCredentials then pure (ctx.region selectedRegion) else fail (.error "No credentials found")

def call {α : Type} (answer : History → String → Op → Except Thrown α) (client : String) (e : Entity)
    (op : Op) : Prog State Thrown α := fun s =>
  let t : State := { s with calls := s.calls ++ [⟨client, e, op⟩] }
  match answer s.calls client op with
  | .ok a => (.returned a, t)
  | .error err => (.thrown err, t)

end Calls

section Mappers

variable (ctx : Ctx)

def vpcMapper (e : Entity) (vpc : AwsVpc) (region : String) : Prog State Thrown (Option Vpc) := do
  let client ← getAwsClient ctx (some region)
  if !Aws.truthy vpc.vpcId || !Aws.truthy vpc.cidrBlock then return none
  else do
    let vpcId := vpc.vpcId.getD ""
    -- enableDnsHostnames, enableDnsSupport and enableNetworkAddressUsageMetrics
    runIf (!vpc.isDefault) (each (fun _ => call ctx.aws.done client e (.describeVpcAttribute vpcId))
      (List.range 3))
    let dhcpOptionsId := vpc.dhcpOptionsId.getD ""
    let known ← reads fun s : State => ctx.known.dhcpOptions s.calls dhcpOptionsId region
    runIf (dhcpOptionsId != "" && dhcpOptionsId != "default" && !known)
      (getAwsClient ctx (some region) >>= fun client =>
        call ctx.aws.done client e (.describeDhcpOptions dhcpOptionsId))
    return some
      { vpcId := some vpcId
        isDefault := vpc.isDefault
        region }

-- vpc.db.read, or else vpc.cloud.read
def readVpc (e : Entity) (vpcId region : String) : Prog State Thrown (Option Vpc) := do
  match ← reads fun s : State => ctx.known.vpc s.calls vpcId region with
  | some vpc => return some vpc
  | none =>
    if region ∈ ctx.enabledRegions then do
      let client ← getAwsClient ctx (some region)
      match (← call ctx.aws.vpcs client e (.describeVpcs (some vpcId))).head? with
      | none => return none
      | some rawVpc => vpcMapper ctx e rawVpc region
    else return none

def mapped (tg : AwsTargetGroup) (vpc : Option Vpc) (region : String) : TargetGroup where
  targetGroupName := tg.targetGroupName.getD ""
  targetType := tg.targetType
  targetGroupArn := tg.targetGroupArn
  ipAddressType := tg.ipAddressType
  protocol := tg.protocol
  port := tg.port
  vpc
  healthCheck := tg.healthCheck
  protocolVersion := tg.protocolVersion
  region

-- any other failure of the read leaves the VPC out
def targetGroupMapper (e : Entity) (tg : Option AwsTargetGroup) (region : String) :
    Prog State Thrown (Option TargetGroup) :=
  match tg.filter fun tg => Aws.truthy tg.targetGroupName with
  | none => return none
  | some tg => do
    match ← attempt (readVpc ctx e (tg.vpcId.getD "") region) with
    | .ok vpc => return if Aws.truthy tg.vpcId && vpc.isNone then none else some (mapped tg vpc region)
    | .error err =>
      return if ctx.aws.code err = "InvalidVpcID.NotFound" then none else some (mapped tg none region)

end Mappers

section Operations

variable (ctx : Ctx)

def TargetGroup.entityId (e : TargetGroup) : String :=
  if Aws.truthy e.targetGroupArn then e.targetGroupArn.getD "" else (e.id.map toString).getD "undefined"

def memo (e : TargetGroup) (s : State) : State :=
  { s with targetGroups := s.targetGroups.set e.entityId e }

def unmemo (e : TargetGroup) (s : State) : State :=
  { s with targetGroups := s.targetGroups.eraseAll [e.entityId] }

def failure : Thrown := .error "what should we do here?"

-- the records saved to the database are left out
def createTargetGroup (e : TargetGroup) : Prog State Thrown (Option TargetGroup) := do
  let client ← getAwsClient ctx (some e.region)
  let vpcs ← call ctx.aws.vpcs client (.targetGroup e) (.describeVpcs none)
  let defaultVpc := vpcs.find? (·.isDefault)
  let vpcId := match e.vpc with
    | none => (defaultVpc.bind (·.vpcId)).getD ""
    | some vpc => vpc.vpcId.getD ""
  let result ← call ctx.aws.targetGroup client (.targetGroup e) (.createTargetGroup e vpcId)
  match result.bind (·.targetGroupArn) with
  | none => fail failure
  | some arn => do
    let newObject ← call ctx.aws.targetGroup client (.targetGroup e) (.describeTargetGroups arn)
    let newEntity ← targetGroupMapper ctx (.targetGroup e) newObject e.region
    return newEntity.map fun newEntity => { newEntity with id := e.id }

-- targetGroup.cloud.create
def cloudCreate (e : TargetGroup) : Prog State Thrown Unit := do
  writes (memo e)
  match ← attempt (createTargetGroup ctx e) with
  | .ok newEntity => writes fun s => newEntity.elim s fun newEntity => memo newEntity s
  | .error err => do
    writes (unmemo e)
    fail err

-- targetGroup.cloud.delete
def cloudDelete (e : TargetGroup) : Prog State Thrown Unit := do
  let client ← getAwsClient ctx (some e.region)
  call ctx.aws.done client (.targetGroup e) (.deleteTargetGroup e.targetGroupArn)
  writes (unmemo e)

-- updateOrReplace
def replaces (prev next : TargetGroup) : Bool :=
  !(prev.targetGroupName == next.targetGroupName && prev.targetType == next.targetType &&
    prev.vpc.bind (·.vpcId) == next.vpc.bind (·.vpcId) && prev.port == next.port &&
    prev.protocol == next.protocol && prev.ipAddressType == next.ipAddressType &&
    prev.protocolVersion == next.protocolVersion && prev.region == next.region)

def noCloudRecord : Thrown := .error "Cannot read properties of undefined (reading 'vpc')"

-- a record of the default VPC, and a row without a VPC
def restores (cloudRecord e : TargetGroup) : Bool := cloudRecord.vpc.any (·.isDefault) && e.vpc.isNone

-- targetGroup.db.update gives nothing back, so that the turn ends here
def restore (cloudRecord : TargetGroup) : Prog State Thrown (Option Unit) := do
  match ← reads fun s : State => ctx.known.save s.calls cloudRecord with
  | .error err => fail err
  | .ok () => return none

-- the turn of the loop for one target group: the client is that of the whole batch
def updateTargetGroup (client : String) (e : TargetGroup) : Prog State Thrown (Option Unit) := do
  match ← reads fun s : State => s.targetGroups.get? (e.targetGroupArn.getD "") with
  | none => fail noCloudRecord
  | some cloudRecord =>
    if restores cloudRecord e then restore ctx cloudRecord
    else if replaces cloudRecord e then do
      cloudDelete ctx cloudRecord
      cloudCreate ctx e
      return none
    else do
      let updatedTargetGroup ← call ctx.aws.targetGroup client (.targetGroup e)
        (.modifyTargetGroup e.targetGroupArn e.healthCheck)
      let _ ← targetGroupMapper ctx (.targetGroup e) updatedTargetGroup e.region
      return none

def updateTargetGroups (es : List TargetGroup) : Prog State Thrown Unit := do
  let client ← getAwsClient ctx none
  let _ ← forOf (updateTargetGroup ctx client) es

end Operations

section Routing

variable {ctx : Ctx} {e : Entity} {region client : String} {C : Call → Prop}

-- on the client of a region, and on behalf of a record
def Of (client : String) (e : Entity) (c : Call) : Prop := c.client = client ∧ c.entity = e

theorem issues_getAwsClient (selectedRegion : Option String) :
    Issues State.calls C (getAwsClient ctx selectedRegion) := by
  rw [getAwsClient]
  split
  · exact issues_of_kept fun _ => rfl
  · exact issues_of_kept fun _ => rfl

theorem ensures_getAwsClient (selectedRegion : Option String) :
    Ensures (· = ctx.region selectedRegion) (getAwsClient ctx selectedRegion) := by
  intro s client t h
  rw [getAwsClient] at h
  split at h
  · cases h
    rfl
  · cases h

theorem calls_call {α : Type} {answer : History → String → Op → Except Thrown α} {op : Op} (s : State) :
    (call answer client e op s).2.calls = s.calls ++ [⟨client, e, op⟩] := by
  rw [call]
  cases answer s.calls client op with
  | ok a => rfl
  | error err => rfl

theorem issues_call {α : Type} {answer : History → String → Op → Except Thrown α} {op : Op} :
    Issues State.calls (Of client e) (call answer client e op) := fun s =>
  ⟨[⟨client, e, op⟩], calls_call s, List.forall_mem_singleton.mpr ⟨rfl, rfl⟩⟩

-- what runs on the client of a region
theorem issues_on {α : Type} {k : String → Prog State Thrown α} (h : Issues State.calls C (k region)) :
    Issues State.calls C (getAwsClient ctx (some region) >>= k) :=
  (issues_getAwsClient _).bind_of (ensures_getAwsClient _) fun client hclient => by
    obtain rfl : client = region := hclient
    exact h

theorem issues_vpcMapper (vpc : AwsVpc) :
    Issues State.calls (Of region e) (vpcMapper ctx e vpc region) := by
  refine issues_on ?_
  dsimp only
  split
  · exact issues_of_kept fun _ => rfl
  · refine Issues.bind (Issues.runIf _ (issues_each (fun _ => issues_call) _)) fun _ => ?_
    refine Issues.bind (issues_of_kept fun _ => rfl) fun known => ?_
    refine Issues.bind (Issues.runIf _ (issues_on issues_call)) fun _ => ?_
    exact issues_of_kept fun _ => rfl

theorem issues_readVpc (vpcId : String) :
    Issues State.calls (Of region e) (readVpc ctx e vpcId region) := by
  refine Issues.bind (issues_of_kept fun _ => rfl) fun known => ?_
  cases known with
  | some vpc => exact issues_of_kept fun _ => rfl
  | none =>
    dsimp only
    split
    · refine issues_on (Issues.bind issues_call fun vpcs => ?_)
      cases vpcs.head? with
      | none => exact issues_of_kept fun _ => rfl
      | some rawVpc => exact issues_vpcMapper rawVpc
    · exact issues_of_kept fun _ => rfl

theorem issues_targetGroupMapper (tg : Option AwsTargetGroup) :
    Issues State.calls (Of region e) (targetGroupMapper ctx e tg region) := by
  rw [targetGroupMapper]
  cases tg.filter fun tg => Aws.truthy tg.targetGroupName with
  | none => exact issues_of_kept fun _ => rfl
  | some tg =>
    refine Issues.bind (issues_readVpc _).attempt fun vpc => ?_
    cases vpc with
    | ok vpc => exact issues_of_kept fun _ => rfl
    | error err => exact issues_of_kept fun _ => rfl

theorem issues_createTargetGroup (e : TargetGroup) :
    Issues State.calls (Of e.region (.targetGroup e)) (createTargetGroup ctx e) := by
  refine issues_on (Issues.bind issues_call fun vpcs => Issues.bind issues_call fun result => ?_)
  cases result.bind (·.targetGroupArn) with
  | none => exact issues_of_kept fun _ => rfl
  | some arn =>
    refine Issues.bind issues_call fun newObject => ?_
    refine Issues.bind (issues_targetGroupMapper newObject) fun newEntity => ?_
    exact issues_of_kept fun _ => rfl

theorem issues_cloudCreate (e : TargetGroup) :
    Issues State.calls (Of e.region (.targetGroup e)) (cloudCreate ctx e) := by
  refine Issues.bind (issues_of_kept fun _ => rfl) fun _ => ?_
  refine Issues.bind (issues_createTargetGroup e).attempt fun result => ?_
  cases result with
  | ok newEntity => exact issues_of_kept fun s => by cases newEntity <;> rfl
  | error err => exact issues_of_kept fun _ => rfl

theorem issues_cloudDelete (e : TargetGroup) :
    Issues State.calls (Of e.region (.targetGroup e)) (cloudDelete ctx e) :=
  issues_on (Issues.bind issues_call fun _ => issues_of_kept fun _ => rfl)

theorem routed_of {c : Call} (hregion : region = e.region) (h : Of region e c) : Routed c := by
  obtain ⟨hclient, hentity⟩ := h
  rw [Routed, hentity, hclient, hregion]

-- a target group is updated in place on the client of the batch
def TargetGroupTurn (client : String) (s : State) (e : TargetGroup) : Prop :=
  ∀ cloudRecord, s.targetGroups.get? (e.targetGroupArn.getD "") = some cloudRecord →
    restores cloudRecord e = false → replaces cloudRecord e = false → client = e.region

theorem restore_snd (cloudRecord : TargetGroup) (s : State) : (restore ctx cloudRecord s).2 = s := by
  rw [restore, reads_bind_apply]
  cases ctx.known.save s.calls cloudRecord <;> rfl

theorem clean_updateTargetGroup_iff (e : TargetGroup) (s : State) :
    Clean State.calls Routed (updateTargetGroup ctx client e s).2 ↔
      Clean State.calls Routed s ∧ TargetGroupTurn client s e := by
  rw [updateTargetGroup, reads_bind_apply, TargetGroupTurn]
  cases s.targetGroups.get? (e.targetGroupArn.getD "") with
  | none =>
    have hturn : ∀ cloudRecord, (none : Option TargetGroup) = some cloudRecord →
        restores cloudRecord e = false → replaces cloudRecord e = false → client = e.region :=
      fun _ h => by cases h
    exact (and_iff_left hturn).symm
  | some cloudRecord =>
    dsimp only
    split
    · next hrestores =>
      rw [restore_snd]
      refine (and_iff_left fun record hrecord hnot => ?_).symm
      obtain rfl := Option.some.inj hrecord
      exact absurd (hrestores.symm.trans hnot) (by decide)
    next hrestores =>
    cases hreplaces : replaces cloudRecord e with
    | true =>
      have hturn : Issues State.calls Routed (cloudDelete ctx cloudRecord >>= fun _ =>
          cloudCreate ctx e >>= fun _ => pure (none : Option Unit)) := by
        refine Issues.bind ((issues_cloudDelete cloudRecord).mono fun _ => routed_of rfl) fun _ => ?_
        refine Issues.bind ((issues_cloudCreate e).mono fun _ => routed_of rfl) fun _ => ?_
        exact issues_of_kept fun _ => rfl
      rw [if_pos rfl, hturn.clean_iff]
      refine (and_iff_left fun record hrecord _ hnot => ?_).symm
      obtain rfl := Option.some.inj hrecord
      exact absurd (hreplaces.symm.trans hnot) (by decide)
    | false =>
      rw [if_neg Bool.false_ne_true]
      refine (clean_bind_iff (R := fun _ => True) (D := Routed) calls_call (fun _ _ _ _ => trivial)
        (fun tg _ => ?_) fun _ _ hd => hd).trans (and_congr Iff.rfl ?_)
      · refine Issues.bind ((issues_targetGroupMapper tg).mono fun _ => routed_of rfl) fun _ => ?_
        exact issues_of_kept fun _ => rfl
      · exact ⟨fun h _ _ _ _ => h, fun h =>
          h cloudRecord rfl (Bool.eq_false_iff.mpr hrestores) hreplaces⟩

end Routing

end Iasql.Elb
