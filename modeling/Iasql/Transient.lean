import Iasql.Aws

namespace Iasql.Aws

open Program Prog OrderedMap

section Raw

structure Endpoint where
  address : Option String := none
  hostedZoneId : Option String := none
  port : Option Nat := none
deriving DecidableEq

structure DBInstance where
  dbInstanceIdentifier : Option String
  dbInstanceStatus : Option String
  dbInstanceArn : Option String := none
  allocatedStorage : Option Nat := none
  availabilityZone : Option String := none
  dbInstanceClass : Option String := none
  endpoint : Option Endpoint := none
  engine : Option String := none
  engineVersion : Option String := none
  masterUsername : Option String := none
  vpcSecurityGroupIds : Option (List (Option String)) := some []
  backupRetentionPeriod : Option Nat := none
  dbParameterGroupNames : List String := []
  dbClusterIdentifier : Option String := none
  tagList : List (Option String × Option String) := []
deriving DecidableEq

structure AWSDBCluster where
  dbClusterIdentifier : Option String
  status : Option String
  dbClusterArn : Option String := none
  allocatedStorage : Option Nat := none
  backupRetentionPeriod : Option Nat := none
  dbClusterInstanceClass : Option String := none
  deletionProtection : Option Bool := none
  engine : Option String := none
  engineVersion : Option String := none
  masterUsername : Option String := none
  dbSubnetGroup : Option String := none
  port : Option Nat := none
  publiclyAccessible : Option Bool := none
  storageEncrypted : Option Bool := none
  iops : Option Nat := none
  vpcSecurityGroupIds : Option (List (Option String)) := some []
  tagList : List (Option String × Option String) := []
deriving DecidableEq

structure AwsVpcEndpoint where
  vpcEndpointId : Option String
  vpcEndpointType : Option String
  state : Option String
  serviceName : Option String := none
  vpcId : Option String := none
  policyDocument : Option String := none
  dnsRecordIpType : Option String := none
  privateDnsEnabled : Option Bool := none
  subnetIds : List String := []
  tags : List (Option String × Option String) := []
deriving DecidableEq

end Raw

section Mappers

variable {W : Type} (aws : Provider W)

def truthyIds (ids : List (Option String)) : List String :=
  (ids.filter truthy).map (·.getD "")

def findSecurityGroups (region : String) (ids : List String) :
    Prog (Context W Entity) Thrown (List JsVal) :=
  mapItems (fun groupId => aws.findRelated "SecurityGroup" (generateId [groupId, region])) ids

def findParameterGroup (rds : DBInstance) (region : String) :
    Prog (Context W Entity) Thrown (Option JsVal) :=
  match rds.dbParameterGroupNames with
  | [] => return none
  | name :: _ => aws.findRelated "ParameterGroup" (generateId [name, region])

def findDBCluster (rds : DBInstance) (region : String) :
    Prog (Context W Entity) Thrown (Option JsVal) :=
  if truthy rds.dbClusterIdentifier then
    aws.findRelated "DBCluster" (generateId [rds.dbClusterIdentifier.getD "", region])
  else return none

def rdsMapper (rds : DBInstance) (region : String) :
    Prog (Context W Entity) Thrown (Option Body) := do
  let availabilityZone ← aws.readById .db "AvailabilityZone"
    (generateId [rds.availabilityZone.getD "", region])
  if includes "aurora" (rds.engine.getD "aurora") then return none
  else match rds.vpcSecurityGroupIds with
  | none => Prog.fail (.error "TypeError")
  | some ids => do
    let vpcSecurityGroups ← findSecurityGroups aws region (truthyIds ids)
    let parameterGroup ← findParameterGroup aws rds region
    -- a missing group is likely that of an unsupported Aurora instance
    if parameterGroup.isNone && !rds.dbParameterGroupNames.isEmpty then return none
    else do
      let dbCluster ← findDBCluster aws rds region
      return some (.rds {
        dbInstanceIdentifier := rds.dbInstanceIdentifier
        arn := rds.dbInstanceArn
        allocatedStorage := rds.allocatedStorage
        availabilityZone
        dbInstanceClass := rds.dbInstanceClass
        engine := rds.engine
        engineVersion := rds.engineVersion
        masterUsername := rds.masterUsername
        vpcSecurityGroups
        endpointAddr := rds.endpoint.bind (·.address)
        endpointPort := rds.endpoint.bind (·.port)
        endpointHostedZoneId := rds.endpoint.bind (·.hostedZoneId)
        backupRetentionPeriod := rds.backupRetentionPeriod.getD 1
        parameterGroup
        dbCluster
        tags := tagsOf rds.tagList
        region })

def findSubnetGroup (cluster : AWSDBCluster) (region : String) :
    Prog (Context W Entity) Thrown (Option JsVal) :=
  if truthy cluster.dbSubnetGroup then
    aws.findRelated "DBSubnetGroup" (generateId [cluster.dbSubnetGroup.getD "", region])
  else return none

-- a security group that cannot be read is left out
def ignoring (p : Prog (Context W Entity) Thrown (Option JsVal)) :
    Prog (Context W Entity) Thrown (Option JsVal) := do
  match ← p.attempt with
  | .ok sg => return sg
  | .error _ => return none

def dbClusterMapper (cluster : AWSDBCluster) (region : String) :
    Prog (Context W Entity) Thrown (Option Body) :=
  if !truthy cluster.dbClusterIdentifier || cluster.allocatedStorage.getD 0 == 0 ||
      !truthy cluster.dbClusterInstanceClass then return none
  else do
    let subnetGroup ← findSubnetGroup aws cluster region
    let vpcSecurityGroups ← mapItems (fun groupId =>
        ignoring (aws.findRelated "SecurityGroup" (generateId [groupId, region])))
      (truthyIds (cluster.vpcSecurityGroupIds.getD []))
    return some (.dbCluster {
      dbClusterIdentifier := cluster.dbClusterIdentifier.getD ""
      arn := cluster.dbClusterArn
      allocatedStorage := cluster.allocatedStorage.getD 0
      iops := cluster.iops.filter (· != 0)
      backupRetentionPeriod := cluster.backupRetentionPeriod
      dbClusterInstanceClass := cluster.dbClusterInstanceClass.getD ""
      subnetGroup
      deletionProtection := cluster.deletionProtection.getD false
      engine := cluster.engine
      engineVersion := cluster.engineVersion.filter (· != "")
      masterUsername := cluster.masterUsername.filter (· != "")
      port := cluster.port
      publiclyAccessible := cluster.publiclyAccessible.getD false
      storageEncrypted := cluster.storageEncrypted.getD false
      vpcSecurityGroups
      tags := tagsOf cluster.tagList
      region })

def endpointInterfaceServices : List String :=
  ["s3", "s3-global.accesspoint", "execute-api", "rds", "logs", "codebuild", "codedeploy",
    "codepipeline", "ec2", "ecr", "ecs", "elasticloadbalancing", "elasticache", "lambda",
    "memory-db"]

def getInterfaceServiceFromServiceName (serviceName : String) : Option String :=
  endpointInterfaceServices.find? (endsWith serviceName)

def availableSubnet (region subnetId : String) : Prog (Context W Entity) Thrown (Option JsVal) := do
  let s ← aws.findRelated "Subnet" (generateId [subnetId, region])
  return s.filter fun e => decide (field "state" e = .str "available")

def endpointInterfaceMapper (eg : AwsVpcEndpoint) (region : String) :
    Prog (Context W Entity) Thrown (Option Body) :=
  if !truthy eg.serviceName || !truthy eg.vpcEndpointId then return none
  else match getInterfaceServiceFromServiceName (eg.serviceName.getD "") with
  | none => return none
  | some service => do
    match ← aws.findRelated "Vpc" (generateId [eg.vpcId.getD "", region]) with
    | none => return none
    | some vpc => do
      let subnets ← mapItems (availableSubnet aws region) eg.subnetIds
      return some (.endpointInterface {
        vpcEndpointId := eg.vpcEndpointId
        service
        policy := if truthy eg.policyDocument then aws.safeParse (eg.policyDocument.getD "")
          else some .null
        vpc := some vpc
        state := eg.state
        subnets
        privateDnsEnabled := eg.privateDnsEnabled.getD false
        dnsNameRecordType := eg.dnsRecordIpType
        tags := tagsOf eg.tags
        region })

end Mappers

section Reads

variable {W : Type} (aws : Provider W) (fuel : Nat)

-- one page of what AWS has in a region, whatever its state
abbrev Describe (W α : Type) := String → Option String → Prog (Store W) Thrown (Page α)

def getDBInstances (describeDBInstances : Describe W DBInstance) (region : String) :
    Prog (Store W) Thrown (List DBInstance) := do
  let all ← paginateBuilder (describeDBInstances region) fuel
  return all.filter fun dbInstance => dbInstance.dbInstanceStatus == some "available"

def getDBClusters (describeDBClusters : Describe W AWSDBCluster) (region : String) :
    Prog (Store W) Thrown (List AWSDBCluster) := do
  let all ← paginateBuilder (describeDBClusters region) fuel
  return all.filter fun dbCluster => dbCluster.status == some "available"

def endpointFilters (eg : AwsVpcEndpoint) : Bool :=
  eg.vpcEndpointType == some "Interface" &&
    ["available", "rejected", "failed"].contains (eg.state.getD "")

def getVpcEndpointInterfaces (describeVpcEndpoints : Describe W AwsVpcEndpoint) (region : String) :
    Prog (Store W) Thrown (List AwsVpcEndpoint) :=
  paginateBuilder (serverSide endpointFilters (describeVpcEndpoints region)) fuel

def supportedCluster (cluster : AWSDBCluster) (region : String) :
    Prog (Context W Entity) Thrown (Option Body) :=
  match cluster.engine with
  | none => Prog.fail (.error "TypeError")
  | some engine => if includes "aurora" engine then return none else dbClusterMapper aws cluster region

inductive Kind where
  | dbInstance
  | dbCluster
  | endpointInterface
deriving DecidableEq

namespace Kind

def Raw : Kind → Type
  | .dbInstance => DBInstance
  | .dbCluster => AWSDBCluster
  | .endpointInterface => AwsVpcEndpoint

def read : (k : Kind) → Describe W k.Raw → Prog (Context W Entity) Thrown (List Entity)
  | .dbInstance, describe => aws.listedRead (getDBInstances fuel describe) (rdsMapper aws)
  | .dbCluster, describe => aws.listedRead (getDBClusters fuel describe) (supportedCluster aws)
  | .endpointInterface, describe =>
    aws.listedRead (getVpcEndpointInterfaces fuel describe) (endpointInterfaceMapper aws)

def mapper (k : Kind) (describe : Describe W k.Raw) (base : Mapper W Entity) : Mapper W Entity :=
  { base with
    entityId := Entity.entityId
    cloud := { base.cloud with readFn := k.read aws fuel describe } }

end Kind

end Reads

section Reported

variable {W : Type} (aws : Provider W) (region : String)

-- a read by id that returns has found the entity
def Found (entityName id : String) : Prop :=
  ∀ c c', aws.findRelated entityName id c ≠ (.returned none, c')

namespace Kind

def identifier : (k : Kind) → k.Raw → Option String
  | .dbInstance => DBInstance.dbInstanceIdentifier
  | .dbCluster => AWSDBCluster.dbClusterIdentifier
  | .endpointInterface => AwsVpcEndpoint.vpcEndpointId

def state : (k : Kind) → k.Raw → Option String
  | .dbInstance => DBInstance.dbInstanceStatus
  | .dbCluster => AWSDBCluster.status
  | .endpointInterface => AwsVpcEndpoint.state

def listedStates : Kind → List String
  | .dbInstance | .dbCluster => ["available"]
  | .endpointInterface => ["available", "rejected", "failed"]

def Supported : (k : Kind) → k.Raw → Prop
  | .dbInstance, rds => includes "aurora" (rds.engine.getD "aurora") = false ∧
      ∀ name ∈ rds.dbParameterGroupNames.head?, Found aws "ParameterGroup" (generateId [name, region])
  | .dbCluster, cluster => (∀ engine ∈ cluster.engine, includes "aurora" engine = false) ∧
      cluster.allocatedStorage.getD 0 ≠ 0 ∧ truthy cluster.dbClusterInstanceClass = true
  | .endpointInterface, eg => eg.vpcEndpointType = some "Interface" ∧
      (getInterfaceServiceFromServiceName (eg.serviceName.getD "")).isSome = true ∧
      Found aws "Vpc" (generateId [eg.vpcId.getD "", region])

def Is (k : Kind) (name : String) (raw : k.Raw) : Prop :=
  k.identifier raw = some name ∧ k.Supported aws region raw

-- present in a state the full read does not leave out
def Listed (k : Kind) (name : String) (raws : List k.Raw) : Prop :=
  ∃ raw ∈ raws, k.Is aws region name raw ∧ ∃ state ∈ k.listedStates, k.state raw = some state

end Kind

variable {aws region} {name : String} {c c' : Context W Entity} {o : Option Body}

theorem endpointFilters_listed {eg : AwsVpcEndpoint} {state : String}
    (htype : eg.vpcEndpointType = some "Interface") (hstate : eg.state = some state)
    (h : state ∈ Kind.endpointInterface.listedStates) : endpointFilters eg = true := by
  rw [endpointFilters, htype, hstate]
  simpa [Kind.listedStates] using h

theorem rdsMapper_accepts {rds : DBInstance} (hname : rds.dbInstanceIdentifier = some name)
    (h : Kind.dbInstance.Supported aws region rds)
    (hrun : rdsMapper aws rds region c = (.returned o, c')) :
    ∃ body ∈ o, body.cloudColumns = [name, region] := by
  obtain ⟨haurora, hgroup⟩ := h
  obtain ⟨az, c₁, -, hrest⟩ := bind_returned_inv hrun
  rw [if_neg (by simp [haurora])] at hrest
  match hids : rds.vpcSecurityGroupIds with
  | none => rw [hids] at hrest; cases hrest
  | some ids =>
    rw [hids] at hrest
    obtain ⟨groups, c₂, -, hrest⟩ := bind_returned_inv hrest
    obtain ⟨parameterGroup, c₃, hfind, hrest⟩ := bind_returned_inv hrest
    have hsupported : (parameterGroup.isNone && !rds.dbParameterGroupNames.isEmpty) = false := by
      unfold findParameterGroup at hfind
      match hnames : rds.dbParameterGroupNames with
      | [] => simp
      | group :: _ =>
        rw [hnames] at hfind
        cases parameterGroup with
        | none => exact absurd hfind (hgroup group (by simp [hnames]) _ _)
        | some _ => rfl
    rw [if_neg (by simp [hsupported])] at hrest
    obtain ⟨cluster, c₄, -, hpure⟩ := bind_returned_inv hrest
    cases hpure
    exact ⟨_, rfl, by simp [Body.cloudColumns, hname]⟩

theorem supportedCluster_accepts {cluster : AWSDBCluster}
    (hname : cluster.dbClusterIdentifier = some name) (hne : name ≠ "")
    (h : Kind.dbCluster.Supported aws region cluster)
    (hrun : supportedCluster aws cluster region c = (.returned o, c')) :
    ∃ body ∈ o, body.cloudColumns = [name, region] := by
  obtain ⟨hengine, hstorage, hclass⟩ := h
  unfold supportedCluster at hrun
  match heng : cluster.engine with
  | none => rw [heng] at hrun; cases hrun
  | some engine =>
    rw [heng] at hrun
    simp only [hengine engine (by simp [heng]), Bool.false_eq_true, if_false] at hrun
    unfold dbClusterMapper at hrun
    rw [if_neg (by simp [truthy, hname, hne, hstorage, show _ ≠ "" by simpa [truthy] using hclass])] at hrun
    obtain ⟨subnetGroup, c₁, -, hrest⟩ := bind_returned_inv hrun
    obtain ⟨groups, c₂, -, hpure⟩ := bind_returned_inv hrest
    cases hpure
    exact ⟨_, rfl, by simp [Body.cloudColumns, hname]⟩

theorem endpointInterfaceMapper_accepts {eg : AwsVpcEndpoint} (hname : eg.vpcEndpointId = some name)
    (hne : name ≠ "") (h : Kind.endpointInterface.Supported aws region eg)
    (hrun : endpointInterfaceMapper aws eg region c = (.returned o, c')) :
    ∃ body ∈ o, body.cloudColumns = [name, region] := by
  obtain ⟨-, hservice, hvpc⟩ := h
  unfold endpointInterfaceMapper at hrun
  have hserviceName : eg.serviceName.getD "" ≠ "" := by
    intro hempty
    rw [hempty] at hservice
    revert hservice
    decide
  rw [if_neg (by simp [truthy, hname, hne, hserviceName])] at hrun
  obtain ⟨service, hfind⟩ := Option.isSome_iff_exists.mp hservice
  rw [hfind] at hrun
  obtain ⟨vpc, c₁, hrelated, hrest⟩ := bind_returned_inv hrun
  cases vpc with
  | none => exact absurd hrelated (hvpc _ _)
  | some vpc =>
    obtain ⟨subnets, c₂, -, hpure⟩ := bind_returned_inv hrest
    cases hpure
    exact ⟨_, rfl, by simp [Body.cloudColumns, hname]⟩

end Reported

section Frames

variable {W : Type} {aws : Provider W} {fuel : Nat} {R : Frame (Store W)}
  {C : Frame (Context W Entity)}

theorem keeps_getDBInstances {describe : Describe W DBInstance} {region : String}
    (h : ∀ token, R.Keeps (describe region token)) :
    R.Keeps (getDBInstances fuel describe region) :=
  Frame.keeps_bind (keeps_paginate h fuel none) fun _ => Frame.keeps_pure _

theorem keeps_getDBClusters {describe : Describe W AWSDBCluster} {region : String}
    (h : ∀ token, R.Keeps (describe region token)) :
    R.Keeps (getDBClusters fuel describe region) :=
  Frame.keeps_bind (keeps_paginate h fuel none) fun _ => Frame.keeps_pure _

theorem keeps_getVpcEndpointInterfaces {describe : Describe W AwsVpcEndpoint} {region : String}
    (h : ∀ token, R.Keeps (describe region token)) :
    R.Keeps (getVpcEndpointInterfaces fuel describe region) :=
  keeps_paginate (fun token => Frame.keeps_bind (h token) fun _ => Frame.keeps_pure _) fuel none

variable (h : ∀ dest entityName id, C.Keeps (aws.readById dest entityName id))

include h

theorem keeps_findRelated_list {entityName : String} {id : String → String}
    (ids : List String) : C.Keeps (mapItems (fun x => aws.findRelated entityName (id x)) ids) :=
  keeps_mapItems fun _ _ => keeps_findRelated h _ _

theorem keeps_rdsMapper (rds : DBInstance) (region : String) :
    C.Keeps (rdsMapper aws rds region) := by
  have hgroup : C.Keeps (findParameterGroup aws rds region) := by
    unfold findParameterGroup
    split
    · exact Frame.keeps_pure _
    · exact keeps_findRelated h _ _
  have hcluster : C.Keeps (findDBCluster aws rds region) :=
    Frame.keeps_ite (keeps_findRelated h _ _) (Frame.keeps_pure _)
  refine Frame.keeps_bind (h _ _ _) fun az => Frame.keeps_ite (Frame.keeps_pure _) ?_
  split
  · exact Frame.keeps_fail _
  · refine Frame.keeps_bind (keeps_findRelated_list h _) fun groups => ?_
    refine Frame.keeps_bind hgroup fun group => Frame.keeps_ite (Frame.keeps_pure _) ?_
    exact Frame.keeps_bind hcluster fun cluster => Frame.keeps_pure _

theorem keeps_supportedCluster (cluster : AWSDBCluster) (region : String) :
    C.Keeps (supportedCluster aws cluster region) := by
  unfold supportedCluster
  split
  · exact Frame.keeps_fail _
  · refine Frame.keeps_ite (Frame.keeps_pure _) (Frame.keeps_ite (Frame.keeps_pure _) ?_)
    refine Frame.keeps_bind (Frame.keeps_ite (keeps_findRelated h _ _) (Frame.keeps_pure _))
      fun subnetGroup => ?_
    refine Frame.keeps_bind (keeps_mapItems fun groupId _ => ?_) fun groups => Frame.keeps_pure _
    refine Frame.keeps_bind (Frame.keeps_attempt (keeps_findRelated h _ _)) ?_
    rintro (e | sg) <;> exact Frame.keeps_pure _

theorem keeps_endpointInterfaceMapper (eg : AwsVpcEndpoint) (region : String) :
    C.Keeps (endpointInterfaceMapper aws eg region) := by
  refine Frame.keeps_ite (Frame.keeps_pure _) ?_
  split
  · exact Frame.keeps_pure _
  · refine Frame.keeps_bind (keeps_findRelated h _ _) ?_
    rintro (_ | vpc)
    · exact Frame.keeps_pure _
    · refine Frame.keeps_bind (keeps_mapItems fun subnet _ => ?_) fun subnets => Frame.keeps_pure _
      exact Frame.keeps_bind (keeps_findRelated h _ _) fun _ => Frame.keeps_pure _

theorem keeps_read {k : Kind} {describe : Describe W k.Raw} (hp : aws.Keeps R)
    (hdescribe : ∀ region token, R.Keeps (describe region token))
    (hstore : ∀ {α : Type} {p : Prog (Store W) Thrown α}, R.Keeps p → C.Keeps (atStore p)) :
    C.Keeps (k.read aws fuel describe) := by
  have hread {α : Type} {list : String → Prog (Store W) Thrown (List α)}
      {mapper : α → String → Prog (Context W Entity) Thrown (Option Body)}
      (hlist : ∀ region, R.Keeps (list region)) (hmapper : ∀ a region, C.Keeps (mapper a region)) :
      C.Keeps (aws.listedRead list mapper) :=
    keeps_listedRead (hstore hp.regions) (fun region => hstore (hp.client region))
      (fun region => hstore (hlist region)) hmapper
  cases k with
  | dbInstance =>
    exact hread (fun region => keeps_getDBInstances (hdescribe region)) (keeps_rdsMapper h)
  | dbCluster =>
    exact hread (fun region => keeps_getDBClusters (hdescribe region)) (keeps_supportedCluster h)
  | endpointInterface =>
    exact hread (fun region => keeps_getVpcEndpointInterfaces (hdescribe region))
      (keeps_endpointInterfaceMapper h)

end Frames

section Presence

variable {W : Type} {aws : Provider W} {fuel : Nat} {k : Kind} {describe : Describe W k.Raw}
  {base : Mapper W Entity} {region name : String} {missed : W → Prop}

-- missed is any record of the world of the full listings that did not list the resource
structure Observed (aws : Provider W) (fuel : Nat) (k : Kind) (describe : Describe W k.Raw)
    (region name : String) (missed : W → Prop) : Prop where
  name_ne : name ≠ ""
  region_ne : region ≠ ""
  provider : aws.Keeps (missedFrame missed)
  describes : ∀ region token, (missedFrame missed).Keeps (describe region token)
  enabled : ∀ st regions st',
    aws.getEnabledAwsRegions st = (.returned regions, st') → region ∈ regions
  listings : ∀ st raws st', paginateBuilder (describe region) fuel st = (.returned raws, st') →
    k.Listed aws region name raws ∨ missed st'.world

theorem listedRead_covers {list : String → Prog (Store W) Thrown (List k.Raw)}
    {mapper : k.Raw → String → Prog (Context W Entity) Thrown (Option Body)}
    (h : Observed aws fuel k describe region name missed)
    (hlist : ∀ region, (missedFrame missed).Keeps (list region))
    (hmapper : ∀ a region, (ctxFrame (missedFrame missed)).Keeps (mapper a region))
    (hlisted : ∀ st items st', list region st = (.returned items, st') →
      (∃ a ∈ items, k.Is aws region name a) ∨ missed st'.world)
    (haccepts : ∀ a c o c', k.Is aws region name a → mapper a region c = (.returned o, c') →
      ∃ body ∈ o, body.cloudColumns = [name, region])
    {c d : Context W Entity} {out : List Entity}
    (hread : aws.listedRead list mapper c = (.returned out, d)) :
    (∃ e ∈ out, e.entityId = generateId [name, region]) ∨ missed d.store.world := by
  obtain ⟨regions, st, hregions, hall⟩ := listedRead_returned h.provider hlist hmapper hread
  obtain ⟨items, st₁, st₂, hitems, hrel, hin⟩ := hall region (h.enabled _ _ _ hregions)
  rcases hlisted _ _ _ hitems with ⟨a, ha, his⟩ | hmiss
  · obtain ⟨o, c₁, c₂, ho, hout⟩ := hin a ha
    obtain ⟨body, hbody, hcolumns⟩ := haccepts a c₁ o c₂ his ho
    refine .inl ⟨_, hout body hbody, ?_⟩
    simp [Entity.entityId, hcolumns, h.name_ne, h.region_ne]
  · exact .inr (hrel hmiss)

theorem read_covers (h : Observed aws fuel k describe region name missed) :
    ReadsOrMisses (k.mapper aws fuel describe base) (generateId [name, region]) missed := by
  intro c out d hread
  cases k with
  | dbInstance =>
    refine listedRead_covers h (fun region => keeps_getDBInstances (h.describes region))
      (keeps_rdsMapper h.provider.byId) (fun st items st' hitems => ?_)
      (fun rds c o c' hrds => rdsMapper_accepts hrds.1 hrds.2) hread
    obtain ⟨all, st₁, hall, hpure⟩ := bind_returned_inv hitems
    cases hpure
    refine (h.listings _ _ _ hall).imp_left ?_
    rintro ⟨rds, hmem, his, state, hlisted, hstate⟩
    obtain rfl := List.mem_singleton.mp hlisted
    refine ⟨rds, List.mem_filter.mpr ⟨hmem, ?_⟩, his⟩
    exact beq_iff_eq.mpr hstate
  | dbCluster =>
    refine listedRead_covers h (fun region => keeps_getDBClusters (h.describes region))
      (keeps_supportedCluster h.provider.byId) (fun st items st' hitems => ?_)
      (fun cluster c o c' hcluster => supportedCluster_accepts hcluster.1 h.name_ne hcluster.2) hread
    obtain ⟨all, st₁, hall, hpure⟩ := bind_returned_inv hitems
    cases hpure
    refine (h.listings _ _ _ hall).imp_left ?_
    rintro ⟨cluster, hmem, his, state, hlisted, hstate⟩
    obtain rfl := List.mem_singleton.mp hlisted
    refine ⟨cluster, List.mem_filter.mpr ⟨hmem, ?_⟩, his⟩
    exact beq_iff_eq.mpr hstate
  | endpointInterface =>
    refine listedRead_covers h (fun region => keeps_getVpcEndpointInterfaces (h.describes region))
      (keeps_endpointInterfaceMapper h.provider.byId) (fun st items st' hitems => ?_)
      (fun eg c o c' heg => endpointInterfaceMapper_accepts heg.1 h.name_ne heg.2) hread
    have hserver := (paginate_serverSide endpointFilters (describe region) fuel none st).symm.trans
      hitems
    obtain ⟨all, st₁, hall, hpure⟩ := bind_returned_inv hserver
    cases hpure
    refine (h.listings _ _ _ hall).imp_left ?_
    rintro ⟨eg, hmem, his, state, hlisted, hstate⟩
    refine ⟨eg, List.mem_filter.mpr ⟨hmem, ?_⟩, his⟩
    exact endpointFilters_listed his.2.1 hstate hlisted

-- no call deletes the row of a resource, or makes it again, unless a listing left it out
theorem run_spares_listed {env : Env W Entity}
    (h : Observed aws fuel k describe region name missed)
    (hs : Situated aws (k.mapper aws fuel describe base) (generateId [name, region]) missed env) :
    ReadsOrMisses (k.mapper aws fuel describe base) (generateId [name, region]) missed ∧
      ∀ n c s, Spared (k.mapper aws fuel describe base).entityName (generateId [name, region])
        s.trace → ¬ missed (CommitCall.run env n c s).2.ctx.store.world →
          Spared (k.mapper aws fuel describe base).entityName (generateId [name, region])
            (CommitCall.run env n c s).2.trace :=
  ⟨read_covers h, fun n c _ hspared hmissed =>
    run_spares (watched_of_situated (cloudId_pair name region) rfl (read_covers h)
      (keeps_read hs.related h.provider h.describes coverFrame_atStore) hs) n c hspared hmissed⟩

end Presence

section Statuses

-- the status of each listing still to come, and those already seen
structure RdsWorld where
  rows : List Entity
  upcoming : List String := []
  reported : List String := []
deriving DecidableEq

def RdsWorld.missed (w : RdsWorld) : Prop := ∃ status ∈ w.reported, status ≠ "available"

instance (w : RdsWorld) : Decidable w.missed :=
  inferInstanceAs (Decidable (∃ status ∈ w.reported, status ≠ "available"))

def mainInstance (status : String) : DBInstance :=
  { dbInstanceIdentifier := some "main", dbInstanceStatus := some status,
    engine := some "postgres" }

def describeDBInstances : Describe RdsWorld DBInstance := fun _ _ => fun st =>
  let status := st.world.upcoming.head?.getD "available"
  (.returned { items := some [mainInstance status] },
    { st with world := { st.world with
        upcoming := st.world.upcoming.tail, reported := st.world.reported ++ [status] } })

def oneRegion : Provider RdsWorld where
  getEnabledAwsRegions := pure ["us-east-1"]
  getAwsClient _ := pure ()
  readById _ entityName id :=
    pure (if entityName = "AvailabilityZone" then some (.obj [("id", .str id)]) else none)
  safeParse _ := none

def mainRow : Entity where
  id := some 1
  body := .rds {
    dbInstanceIdentifier := some "main"
    engine := some "postgres"
    availabilityZone := some (.obj [("id", .str "|us-east-1")])
    region := "us-east-1" }

-- AWS refuses a second instance of the same name
def rdsBase : Mapper RdsWorld Entity where
  metadata := { name := "RDS", tableName := "rds",
                ownColumns := [{ databaseName := "db_instance_identifier",
                                 propertyName := "dbInstanceIdentifier" }] }
  source := .db
  entityId := Entity.entityId
  equals a b := a.body == b.body
  updateOrReplace _ _ := .update
  db := Crud.ofList RdsWorld.rows fun rows w => { w with rows }
  cloud :=
    { createFn := fun _ => Prog.fail (.error "DBInstanceAlreadyExists")
      readFn := pure []
      updateFn := fun e => pure [e]
      deleteFn := fun _ => pure () }
  changedEntities _ := Prog.reads fun st => st.world.rows

def rdsMapperOf : Mapper RdsWorld Entity :=
  Kind.dbInstance.mapper oneRegion 2 describeDBInstances rdsBase

def rdsEnv : Env RdsWorld Entity :=
  Env.reliable { dbUser := "iasql", version := "0.0.1" }
    [{ name := "aws_rds", version := "0.0.1", dependencies := [], tables := ["rds"],
       mappers := [rdsMapperOf] }]

def rdsEngine (upcoming : List String) (auditLog : List IasqlAuditLog) : Engine RdsWorld Entity where
  ctx := { store := { world := { rows := [mainRow], upcoming }, auditLog } }

def userUpdate : IasqlAuditLog :=
  { id := 1, ts := 2, user := "owner", tableName := "rds", changeType := .update,
    change := { change := some [("db_instance_identifier", .str "main")] } }

theorem missed_of_reported {w v : RdsWorld} (h : w.reported ⊆ v.reported) (hw : w.missed) :
    v.missed := by
  obtain ⟨status, hmem, hne⟩ := hw
  exact ⟨status, h hmem, hne⟩

theorem describeDBInstances_keeps (region : String) (token : Option String) :
    (missedFrame RdsWorld.missed).Keeps (describeDBInstances region token) := fun _ =>
  missed_of_reported (List.subset_append_left _ _)

theorem oneRegion_keeps {C : Frame (Context RdsWorld Entity)} (dest : Dest) (entityName id : String) :
    C.Keeps (oneRegion.readById dest entityName id) := Frame.keeps_pure _

theorem oneRegion_observed :
    Observed oneRegion 2 .dbInstance describeDBInstances "us-east-1" "main" RdsWorld.missed where
  name_ne := by decide
  region_ne := by decide
  provider :=
    { regions := Frame.keeps_pure _
      client := fun _ => Frame.keeps_pure _
      byId := oneRegion_keeps }
  describes := describeDBInstances_keeps
  enabled st regions st' h := by
    cases h
    exact List.mem_singleton.mpr rfl
  listings st raws st' h := by
    cases h
    by_cases havailable : st.world.upcoming.head?.getD "available" = "available"
    · have hpostgres : includes "aurora" "postgres" = false := by decide +kernel
      refine .inl ⟨_, List.mem_singleton.mpr rfl, ⟨rfl, hpostgres, by simp [mainInstance]⟩,
        "available", by decide, ?_⟩
      exact congrArg some havailable
    · exact .inr ⟨_, List.mem_append_right _ (List.mem_singleton.mpr rfl), havailable⟩

theorem rdsCover_writes {missed : RdsWorld → Prop} {m : Mapper RdsWorld Entity} {id : String}
    {f : List Entity → List Entity} (hrows : ∀ w rows, missed w → missed { w with rows }) :
    (coverFrame m id missed).Keeps (Prog.writes fun ctx => { ctx with store := { ctx.store with
      world := { ctx.store.world with rows := f ctx.store.world.rows } } } :
        Prog (Context RdsWorld Entity) Thrown Unit) :=
  fun _ => ⟨fun h => hrows _ _ h, .inl⟩

theorem rdsMapperOf_keeps : MapperKeeps (missedFrame RdsWorld.missed) rdsMapperOf where
  create dest e := by
    cases dest with
    | db => exact Frame.keeps_bind (fun _ h => h) fun _ => Frame.keeps_pure _
    | cloud => exact Frame.keeps_fail _
  read dest := by
    cases dest with
    | db => exact Frame.keeps_reads _
    | cloud =>
      exact keeps_read oneRegion_keeps oneRegion_observed.provider describeDBInstances_keeps
        keeps_atStore
  update dest e := by cases dest <;> exact Frame.keeps_pure _
  delete dest e := by
    cases dest with
    | db => exact fun _ h => h
    | cloud => exact Frame.keeps_pure _
  changed _ := Frame.keeps_reads _

theorem rdsEnv_situated :
    Situated oneRegion rdsMapperOf (generateId ["main", "us-east-1"]) RdsWorld.missed rdsEnv where
  keeps :=
    { newDate := fun _ h => h
      createConn := Frame.keeps_pure _
      dropConn := fun _ => Frame.keeps_pure _
      roundTrip := Frame.keeps_pure _
      upgrading := Frame.keeps_pure _
      versionString := Frame.keeps_pure _
      recreateEntities := fun _ => Frame.keeps_pure _
      query := fun _ => Frame.keeps_pure _
      modules := fun mod hmod m hm => by
        obtain rfl := List.mem_singleton.mp hmod
        obtain rfl := List.mem_singleton.mp hm
        exact rdsMapperOf_keeps }
  related := oneRegion_keeps
  createRow e := Frame.keeps_bind (rdsCover_writes (f := fun rows => rows ++ [e]) fun _ _ h => h)
    fun _ => Frame.keeps_pure _
  readRows := Frame.keeps_reads _
  updateRow _ := Frame.keeps_pure _
  deleteRow e := rdsCover_writes (f := fun rows => rows.filter (· ≠ e)) fun _ _ h => h
  others mod hmod m' hm := by
    obtain rfl := List.mem_singleton.mp hmod
    exact .inl (List.mem_singleton.mp hm)
  created e c out c' he h := by
    cases h
    intro o ho
    obtain rfl := List.mem_singleton.mp ho
    exact he
  updated e c out c' he h := by
    cases h
    intro o ho
    obtain rfl := List.mem_singleton.mp ho
    exact he

theorem available_instance_spared :
    Spared "RDS" "main|us-east-1" (CommitCall.run rdsEnv 4 (.commit false false none none)
      (rdsEngine ["available"] [userUpdate])).2.trace := by
  exact (run_spares_listed oneRegion_observed rdsEnv_situated).2 4 (.commit false false none none)
    (rdsEngine ["available"] [userUpdate]) (by decide) (by decide +kernel)

def fullReadIds (status : String) : List String :=
  match (rdsMapperOf.cloud.readFn (rdsEngine [status] []).ctx).1 with
  | .returned es => es.map Entity.entityId
  | _ => []

-- the instance is in every listing: sync deletes its row and apply creates it while it is backed up
theorem backing_up_instance_struck :
    fullReadIds "backing-up" ≠ fullReadIds "available" ∧
      ¬ Spared "RDS" "main|us-east-1" (CommitCall.run rdsEnv 4 (.commit false false none none)
        (rdsEngine ["backing-up"] [])).2.trace ∧
      ¬ Spared "RDS" "main|us-east-1" (CommitCall.run rdsEnv 4 (.commit false false none none)
        (rdsEngine ["backing-up"] [userUpdate])).2.trace := by
  refine ⟨?_, ?_, ?_⟩ <;> decide +kernel

end Statuses

end Iasql.Aws
