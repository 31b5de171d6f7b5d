import Iasql.Aws
import Iasql.Calculus.Paging
import Iasql.Calculus.Visits

namespace Iasql.Aws

open Program Prog OrderedMap Paging

section Raw

structure AwsMetricAlarm where
  alarmName : Option String
  alarmArn : Option String
  settings : JsVal := .null
deriving DecidableEq

structure AwsSubnetGroup where
  name : Option String
  arn : Option String
  description : Option String := none
  subnets : List (Option String) := []
deriving DecidableEq

structure RepositoryAws where
  repositoryName : Option String
  repositoryArn : Option String := none
  registryId : Option String := none
  repositoryUri : Option String := none
  createdAt : Option Nat := none
  imageTagMutability : Option String := none
  scanOnPush : Option Bool := none
deriving DecidableEq

structure ImageDetail where
  imageDigest : Option String
  repositoryName : Option String
  imageTags : List String := []
  imageSizeInBytes : Option Nat := none
  imagePushedAt : Option Nat := none
  registryId : Option String := none
deriving DecidableEq

structure TableDescription where
  tableName : Option String
  tableClass : Option String := none
  billingMode : Option String := none
  readCapacityUnits : Option Nat := none
  writeCapacityUnits : Option Nat := none
  tableId : Option String := none
  attributeDefinitions : List (String × String) := []
  keySchema : List (Option String × Option String) := []
  creationDateTime : Option Nat := none
deriving DecidableEq

end Raw

section Mappers

def metricAlarmMapper (ma : AwsMetricAlarm) (region : String) : Option Body :=
  if !truthy ma.alarmArn || !truthy ma.alarmName then none
  else some (.metricAlarm {
    alarmName := ma.alarmName.getD ""
    alarmArn := ma.alarmArn
    settings := ma.settings
    region })

def supportedRegions : List String :=
  ["ap-east-1", "ap-northeast-1", "ap-northeast-2", "ap-south-1", "ap-southeast-1",
    "ap-southeast-2", "ca-central-1", "cn-north-1", "cn-northwest-1", "eu-central-1",
    "eu-north-1", "eu-south-1", "eu-west-1", "eu-west-2", "eu-west-3", "sa-east-1",
    "us-east-1", "us-east-2", "us-west-1", "us-west-2"]

def subnetGroupMapper (cloudE : AwsSubnetGroup) (region : String) : Option Body :=
  if !truthy cloudE.arn || !truthy cloudE.name then none
  else some (.subnetGroup {
    subnetGroupName := cloudE.name.getD ""
    description := cloudE.description
    arn := cloudE.arn
    subnets := cloudE.subnets.map (·.getD "")
    region })

def repositoryMapper (r : RepositoryAws) (region : String) : Option Body :=
  if !truthy r.repositoryName then none
  else some (.repository {
    repositoryName := r.repositoryName.getD ""
    repositoryArn := r.repositoryArn
    registryId := r.registryId
    repositoryUri := r.repositoryUri
    createdAt := r.createdAt
    imageTagMutability := r.imageTagMutability.getD "MUTABLE"
    scanOnPush := r.scanOnPush.getD false
    region })

-- the comparison puts the HASH key first
def hashFirst (keySchema : List (Option String × Option String)) :
    List (Option String × Option String) :=
  keySchema.filter (·.2 == some "HASH") ++ keySchema.filter (·.2 != some "HASH")

def dynamoBody (dynamo : TableDescription) (region : String) : Option Body :=
  dynamo.tableName.map fun tableName => .dynamoTable {
    tableName
    tableClass := dynamo.tableClass.getD "STANDARD"
    throughput :=
      if dynamo.billingMode == some "PAY_PER_REQUEST" then .payPerRequest
      else .provisioned (dynamo.readCapacityUnits.getD 0) (dynamo.writeCapacityUnits.getD 0)
    tableId := dynamo.tableId
    primaryKey := ofList (((hashFirst dynamo.keySchema).filter (truthy ·.1)).map fun ks =>
      (ks.1.getD "", find (ks.1.getD "") (ofList dynamo.attributeDefinitions)))
    createdAt := dynamo.creationDateTime
    region }

def dynamoMapper {σ : Type} (dynamo : TableDescription) (region : String) : Prog σ Thrown Body :=
  match dynamoBody dynamo region with
  | none => Prog.fail (.error "Did not get a table name from AWS")
  | some body => return body

end Mappers

section Calls

-- every call to AWS takes a moment, and finds the cloud as it is at that moment
structure Clock (W : Type) where
  now : W → Nat
  tick : W → W
  now_tick : ∀ w, now (tick w) = now w + 1

variable {W α β : Type}

def Clock.call (clock : Clock W) (answer : Nat → Except Thrown β) : Prog (Store W) Thrown β :=
  fun st =>
    (match answer (clock.now st.world) with
      | .ok b => .returned b
      | .error err => .thrown err,
      { st with world := clock.tick st.world })

-- an entry that names itself has the name it is listed under
structure Listing {α : Type} (name : α → Option String) extends Shelf String α where
  failure : Nat → Option Thrown
  entries : ∀ {t k a}, held t k = some a → k ∈ keys ∧ k ≠ "" ∧ ∀ n ∈ name a, n = k

def Listing.page {name : α → Option String} (listing : Listing name) (f : String × α → β)
    (token : Option String) (t : Nat) : Except Thrown (Page β) :=
  match listing.failure t with
  | some err => .error err
  | none => .ok { items := some ((listing.shown t token).map f), nextToken := listing.next t token }

structure Cloud (W : Type) extends Provider W where
  clock : Clock W
  fuel : Nat
  alarms : String → Listing AwsMetricAlarm.alarmName
  subnetGroups : String → Listing AwsSubnetGroup.name
  repositories : String → Listing RepositoryAws.repositoryName
  images : String → String → Listing ImageDetail.imageDigest
  publicImages : String → Listing ImageDetail.imageDigest
  tables : String → Listing TableDescription.tableName
  -- describing a table that is gone throws, or is answered without a table
  goneTable : String → Nat → Option Thrown
  -- ctx.memo.cloud has an object under the name, be it an empty one
  memoised : Memo Entity → String → Bool
  repository : Mapper W Entity

end Calls

namespace Cloud

variable {W : Type} (cloud : Cloud W)

def getMetricAlarms (region : String) : Prog (Store W) Thrown (List AwsMetricAlarm) := do
  let res ← cloud.clock.call ((cloud.alarms region).page Prod.snd none)
  return res.items.getD []

def metricAlarmRegion : String → Prog (Context W Entity) Thrown (List Entity) :=
  cloud.readRegion cloud.getMetricAlarms fun ma region => pure (metricAlarmMapper ma region)

def metricAlarmRead : Prog (Context W Entity) Thrown (List Entity) :=
  cloud.inRegions cloud.metricAlarmRegion

def getSubnetGroups (region : String) : Prog (Store W) Thrown (List AwsSubnetGroup) := do
  let res ← cloud.clock.call ((cloud.subnetGroups region).page Prod.snd none)
  return res.items.getD []

def subnetGroupRegion (region : String) : Prog (Context W Entity) Thrown (List Entity) :=
  if !supportedRegions.contains region then return []
  else cloud.readRegion cloud.getSubnetGroups
    (fun obj region => pure (subnetGroupMapper obj region)) region

def subnetGroupRead : Prog (Context W Entity) Thrown (List Entity) :=
  cloud.inRegions cloud.subnetGroupRegion

def getTable (region tableName : String) : Prog (Store W) Thrown (Option TableDescription) :=
  cloud.clock.call fun t =>
    match (cloud.tables region).failure t with
    | some err => .error err
    | none =>
      match (cloud.tables region).held t tableName with
      | some table => .ok (some table)
      | none =>
        match cloud.goneTable region t with
        | some err => .error err
        | none => .ok none

def listTables (region : String) : Prog (Store W) Thrown (List String) :=
  paginateBuilder (fun token => cloud.clock.call ((cloud.tables region).page Prod.fst token))
    cloud.fuel

def describeTables (region : String) : List String → Prog (Context W Entity) Thrown (List Entity)
  | [] => return []
  | tableName :: tableNames => do
    match ← atStore (cloud.getTable region tableName) with
    -- the return leaves the region, not the table
    | none => return []
    | some table => do
      let body ← dynamoMapper table region
      return { body } :: (← describeTables region tableNames)

def tableRegion (region : String) : Prog (Context W Entity) Thrown (List Entity) := do
  atStore (cloud.getAwsClient (some region))
  let tableNames ← atStore (cloud.listTables region)
  cloud.describeTables region tableNames

def dynamoTableRead : Prog (Context W Entity) Thrown (List Entity) :=
  cloud.inRegions cloud.tableRegion

def getECRRepositories (region : String) : Prog (Store W) Thrown (List RepositoryAws) :=
  paginateBuilder (fun token =>
    cloud.clock.call ((cloud.repositories region).page Prod.snd token)) cloud.fuel

def repositoryRegion : String → Prog (Context W Entity) Thrown (List Entity) :=
  cloud.readRegion cloud.getECRRepositories fun r region => pure (repositoryMapper r region)

def repositoryRead : Prog (Context W Entity) Thrown (List Entity) :=
  cloud.inRegions cloud.repositoryRegion

def repositoryCrud : Mapper W Entity :=
  { cloud.repository with
    entityId := Entity.entityId
    cloud := { cloud.repository.cloud with readFn := cloud.repositoryRead } }

-- Crud.read without an id, with the entities it returns
def fullRead (m : Mapper W Entity) (dest : Dest) : Prog (Context W Entity) Thrown (List Entity) := do
  match ← ((m.crud dest).readFn).attempt with
  | .ok out => do
    Prog.writes fun ctx => m.memo dest ctx out
    return out
  | .error err => m.rethrow dest "read" err

def repositoriesIn (es : List Entity) : List Repository :=
  es.filterMap fun e =>
    match e.body with
    | .repository r => some r
    | _ => none

def publicRepositoriesIn (es : List Entity) : List PublicRepository :=
  es.filterMap fun e =>
    match e.body with
    | .publicRepository r => some r
    | _ => none

def usedRepositories : Prog (Context W Entity) Thrown (List Repository) := do
  let ctx ← Prog.reads id
  if cloud.memoised ctx.memoCloud "Repository" then
    return repositoriesIn (ctx.entities .cloud "Repository")
  else return repositoriesIn (← fullRead cloud.repositoryCrud .cloud)

-- one record for each tag of an image, and one for an image without tags
def tagged (imageDetail : ImageDetail) : List (ImageDetail × String) :=
  if imageDetail.imageTags.isEmpty then [(imageDetail, "<untagged>")]
  else imageDetail.imageTags.map fun imageTag => (imageDetail, imageTag)

def imageId (image : ImageDetail) (imageTag type : String) (region : Option String) : String :=
  generateId ([image.imageDigest.getD "", imageTag, type, image.repositoryName.getD "undefined"] ++
    region.toList)

def repositoryImageMapper (image : ImageDetail × String) (type : String) (region : Option String) :
    Prog (Context W Entity) Thrown Entity :=
  if !truthy image.1.imageDigest then Prog.fail (.error "Invalid repository image")
  else do
    let name := image.1.repositoryName.getD ""
    let privateRepository ← (if type == "private" then
        cloud.findRelated "Repository" (generateId [name, region.getD ""])
      else pure none)
    let publicRepository ← (if type == "private" then pure none
      else cloud.readById .cloud "PublicRepository" name)
    return { body := .repositoryImage {
      imageId := imageId image.1 image.2 type region
      imageDigest := image.1.imageDigest.getD ""
      imageTag := image.2
      sizeInMB := (image.1.imageSizeInBytes.filter (· != 0)).map fun n => (n + 524288) / 1048576
      pushedAt := image.1.imagePushedAt
      registryId := image.1.registryId
      privateRepository
      publicRepository
      privateRepositoryRegion := region } }

-- what the loop pushed stays when the catch around it swallows an error
def pushImages (region : String) : List (ImageDetail × String) →
    Prog (Context W Entity) Thrown (List Entity)
  | [] => return []
  | image :: images => do
    match ← (cloud.repositoryImageMapper image "private" (some region)).attempt with
    | .ok e => return e :: (← pushImages region images)
    | .error _ => return []

def privateDetails (imageDetails : List ImageDetail) : List (ImageDetail × String) :=
  (imageDetails.filter fun d => truthy d.imageDigest && truthy d.repositoryName).flatMap tagged

def listRepositoryImages (region : String) (r : Repository) :
    Prog (Store W) Thrown (Page ImageDetail) :=
  cloud.clock.call ((cloud.images region r.repositoryName).page Prod.snd none)

def repositoryImages (region : String) (r : Repository) :
    Prog (Context W Entity) Thrown (List Entity) := do
  match ← (atStore (cloud.listRepositoryImages region r)).attempt with
  | .ok ri => cloud.pushImages region (privateDetails (ri.items.getD []))
  | .error _ => return []

def privateRegion (repositories : List Repository) (region : String) :
    Prog (Context W Entity) Thrown (List Entity) := do
  atStore (cloud.getAwsClient (some region))
  Prog.gather (cloud.repositoryImages region) (repositories.filter (·.region == region))

def listPublicRepositoryImages (rp : PublicRepository) : Prog (Store W) Thrown (Page ImageDetail) :=
  cloud.clock.call ((cloud.publicImages rp.repositoryName).page Prod.snd none)

def publicRepositoryImages (rp : PublicRepository) :
    Prog (Context W Entity) Thrown (List Entity) := do
  let ri ← atStore (cloud.listPublicRepositoryImages rp)
  Prog.gather (fun image => do return [← cloud.repositoryImageMapper image "public" none])
    ((ri.items.getD []).flatMap tagged)

def usedPublicRepositories (ctx : Context W Entity) : List PublicRepository :=
  if cloud.memoised ctx.memoCloud "PublicRepository" then
    publicRepositoriesIn (ctx.entities .cloud "PublicRepository")
  else []

def repositoryImageRead : Prog (Context W Entity) Thrown (List Entity) := do
  let enabledRegions ← atStore cloud.getEnabledAwsRegions
  let repositories ← cloud.usedRepositories
  let privateImages ← Prog.gather (cloud.privateRegion repositories) enabledRegions
  atStore (cloud.getAwsClient none)
  let publicRepositories ← Prog.reads cloud.usedPublicRepositories
  let publicImages ← Prog.gather cloud.publicRepositoryImages publicRepositories
  return privateImages ++ publicImages

end Cloud

section Frames

variable {W : Type}

-- what every step of the reads keeps
structure Kept (cloud : Cloud W) (R : Frame (Store W)) (C : Frame (Context W Entity)) : Prop where
  regions : R.Keeps cloud.getEnabledAwsRegions
  client : ∀ region, R.Keeps (cloud.getAwsClient region)
  tick : ∀ st : Store W, R.rel st { st with world := cloud.clock.tick st.world }
  related : ∀ dest entityName id, C.Keeps (cloud.readById dest entityName id)
  atStore : ∀ {α : Type} {p : Prog (Store W) Thrown α}, R.Keeps p → C.Keeps (atStore p)
  memo : ∀ es, C.Keeps (Prog.writes fun ctx => cloud.repositoryCrud.memo .cloud ctx es :
    Prog (Context W Entity) Thrown Unit)

namespace Kept

variable {cloud : Cloud W} {R : Frame (Store W)} {C : Frame (Context W Entity)}
  (h : Kept cloud R C)

include h

theorem call {β : Type} (answer : Nat → Except Thrown β) : R.Keeps (cloud.clock.call answer) :=
  h.tick

theorem readRegion {α : Type} {list : String → Prog (Store W) Thrown (List α)}
    {f : α → String → Option Body} (hlist : ∀ region, R.Keeps (list region)) (region : String) :
    C.Keeps (cloud.readRegion list (fun a region => pure (f a region)) region) :=
  keeps_readRegion (h.atStore (h.client _)) (h.atStore (hlist region)) fun _ => Frame.keeps_pure _

theorem inRegions {body : String → Prog (Context W Entity) Thrown (List Entity)}
    (hbody : ∀ region, C.Keeps (body region)) : C.Keeps (cloud.inRegions body) :=
  Frame.keeps_bind (h.atStore h.regions) fun _ => Frame.keeps_gather fun region _ => hbody region

theorem metricAlarmRegion (region : String) : C.Keeps (cloud.metricAlarmRegion region) :=
  h.readRegion (fun _ => Frame.keeps_bind (h.call _) fun _ => Frame.keeps_pure _) region

theorem subnetGroupRegion (region : String) : C.Keeps (cloud.subnetGroupRegion region) :=
  Frame.keeps_ite (Frame.keeps_pure _)
    (h.readRegion (fun _ => Frame.keeps_bind (h.call _) fun _ => Frame.keeps_pure _) region)

theorem repositoryRegion (region : String) : C.Keeps (cloud.repositoryRegion region) :=
  h.readRegion (fun _ => keeps_paginate (fun _ => h.call _) _ _) region

theorem describeTables (region : String) (tableNames : List String) :
    C.Keeps (cloud.describeTables region tableNames) := by
  induction tableNames with
  | nil => exact Frame.keeps_pure _
  | cons tableName tableNames ih =>
    refine Frame.keeps_bind (h.atStore (h.call _)) ?_
    rintro (_ | table)
    · exact Frame.keeps_pure _
    · refine Frame.keeps_bind ?_ fun _ => Frame.keeps_bind ih fun _ => Frame.keeps_pure _
      unfold dynamoMapper
      split
      · exact Frame.keeps_fail _
      · exact Frame.keeps_pure _

theorem tableRegion (region : String) : C.Keeps (cloud.tableRegion region) :=
  Frame.keeps_bind (h.atStore (h.client _)) fun _ =>
    Frame.keeps_bind (h.atStore (keeps_paginate (fun _ => h.call _) _ _)) fun _ =>
      h.describeTables region _

theorem usedRepositories : C.Keeps cloud.usedRepositories := by
  refine Frame.keeps_bind (Frame.keeps_reads _) fun ctx => Frame.keeps_ite (Frame.keeps_pure _) ?_
  refine Frame.keeps_bind ?_ fun _ => Frame.keeps_pure _
  refine Frame.keeps_bind (Frame.keeps_attempt (h.inRegions h.repositoryRegion)) ?_
  rintro (err | out)
  · cases err <;> exact Frame.keeps_fail _
  · exact Frame.keeps_bind (h.memo out) fun _ => Frame.keeps_pure _

theorem repositoryImageMapper (image : ImageDetail × String) (type : String)
    (region : Option String) : C.Keeps (cloud.repositoryImageMapper image type region) := by
  refine Frame.keeps_ite (Frame.keeps_fail _) ?_
  refine Frame.keeps_bind (Frame.keeps_ite (keeps_findRelated h.related _ _)
    (Frame.keeps_pure _)) fun _ => ?_
  refine Frame.keeps_bind (Frame.keeps_ite (Frame.keeps_pure _) (h.related _ _ _)) fun _ => ?_
  exact Frame.keeps_pure _

theorem pushImages (region : String) (images : List (ImageDetail × String)) :
    C.Keeps (cloud.pushImages region images) := by
  induction images with
  | nil => exact Frame.keeps_pure _
  | cons image images ih =>
    refine Frame.keeps_bind (Frame.keeps_attempt (h.repositoryImageMapper image _ _)) ?_
    rintro (_ | e)
    · exact Frame.keeps_pure _
    · exact Frame.keeps_bind ih fun _ => Frame.keeps_pure _

theorem repositoryImages (region : String) (r : Repository) :
    C.Keeps (cloud.repositoryImages region r) := by
  refine Frame.keeps_bind (Frame.keeps_attempt (h.atStore (h.call _))) ?_
  rintro (_ | ri)
  · exact Frame.keeps_pure _
  · exact h.pushImages region _

theorem privateRegion (repositories : List Repository) (region : String) :
    C.Keeps (cloud.privateRegion repositories region) :=
  Frame.keeps_bind (h.atStore (h.client _)) fun _ =>
    Frame.keeps_gather fun r _ => h.repositoryImages region r

theorem publicRepositoryImages (rp : PublicRepository) :
    C.Keeps (cloud.publicRepositoryImages rp) :=
  Frame.keeps_bind (h.atStore (h.call _)) fun _ => Frame.keeps_gather fun image _ =>
    Frame.keeps_bind (h.repositoryImageMapper image _ _) fun _ => Frame.keeps_pure _

theorem repositoryImageRead : C.Keeps cloud.repositoryImageRead := by
  refine Frame.keeps_bind (h.atStore h.regions) fun _ => ?_
  refine Frame.keeps_bind h.usedRepositories fun repositories => ?_
  refine Frame.keeps_bind (Frame.keeps_gather fun region _ => h.privateRegion repositories region)
    fun _ => ?_
  refine Frame.keeps_bind (h.atStore (h.client _)) fun _ => ?_
  refine Frame.keeps_bind (Frame.keeps_reads _) fun _ => ?_
  exact Frame.keeps_bind (Frame.keeps_gather fun rp _ => h.publicRepositoryImages rp) fun _ =>
    Frame.keeps_pure _

end Kept

end Frames

end Iasql.Aws
