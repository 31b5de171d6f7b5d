import Iasql.Calculus.Base64
import Iasql.SecurityGroups
import Iasql.Tags

namespace Iasql.Instances

open Program Prog Aws SecurityGroups Tags

inductive State where
  | running | stopped | hibernate
deriving DecidableEq

structure IamRole where
  roleName : String
  arn : Option String := none
deriving DecidableEq

structure Subnet where
  id : Option Nat := none
  subnetId : Option String
  region : String
deriving DecidableEq

structure Instance where
  id : Option Nat := none
  instanceId : Option String := none
  ami : String
  instanceType : String
  keyPairName : Option String := none
  state : State := .running
  userData : Option String := none
  tags : Option (Dict String String) := none
  securityGroups : List SecurityGroup := []
  role : Option IamRole := none
  subnet : Option Subnet := none
  hibernationEnabled : Bool := false
  region : String
deriving DecidableEq

def Instance.entityId (e : Instance) : String :=
  if Aws.truthy e.instanceId && e.region != "" then generateId [e.instanceId.getD "", e.region]
  else (e.id.map toString).getD "undefined"

def instanceEqReplaceableFields (a b : Instance) : Bool :=
  a.instanceId == b.instanceId && a.instanceType == b.instanceType && a.userData == b.userData &&
    a.keyPairName == b.keyPairName && a.securityGroups.length == b.securityGroups.length &&
    (a.securityGroups.all fun as => b.securityGroups.any fun bs => as.groupId == bs.groupId) &&
    a.role.bind (·.arn) == b.role.bind (·.arn) &&
    a.subnet.bind (·.subnetId) == b.subnet.bind (·.subnetId) &&
    a.hibernationEnabled == b.hibernationEnabled

def equals (a b : Instance) : Bool :=
  a.state == b.state && instanceEqReplaceableFields a b && eqTags a.tags b.tags

section UserData

-- Buffer.from(userData)
def utf8 (text : String) : List UInt8 := text.toList.flatMap String.utf8EncodeChar

-- toString('ascii') drops the highest bit of each byte
def ascii (bytes : List UInt8) : String := String.ofList (bytes.map fun b => Char.ofNat (b.toNat % 128))

def encodeUserData (userData : Option String) : Option String :=
  (userData.filter (· != "")).map fun text => String.ofList (Base64.encode (utf8 text))

def decodeUserData (userDataBase64 : Option String) : Option String :=
  (userDataBase64.filter (· != "")).map fun text => ascii (Base64.decode text.toList)

end UserData

section Ec2

inductive InstanceStateName where
  | pending | running | shuttingDown | terminated | stopping | stopped
deriving DecidableEq

structure AwsInstance where
  instanceId : Option String
  tags : Dict String String := ∅
  userData : Option String := none
  state : InstanceStateName := .running
  imageId : Option String := none
  keyName : Option String := none
  instanceType : Option String := none
  securityGroupIds : List String := []
  iamInstanceProfileArn : Option String := none
  subnetId : Option String := none
  hibernationConfigured : Option Bool := none
  isSpot : Bool := false
deriving DecidableEq

structure RunInstances where
  imageId : String
  instanceType : String
  tags : Dict String String
  keyName : Option String
  userData : Option String
  iamInstanceProfileArn : Option String
  subnetId : Option String
  securityGroupIds : List String
  hibernationConfigured : Bool

-- what AWS answers, and what it chooses where the request leaves it out
structure Service where
  runInstances : Dict String AwsInstance → RunInstances → Except Thrown String
  imageId : String → String
  securityGroupIds : List String
  subnetId : String

-- the tags and the user data are stored as they are sent
def launched (service : Service) (p : RunInstances) (instanceId : String) : AwsInstance where
  instanceId := some instanceId
  tags := p.tags
  userData := p.userData
  imageId := some (service.imageId p.imageId)
  keyName := p.keyName
  instanceType := some p.instanceType
  securityGroupIds := if p.securityGroupIds.isEmpty then service.securityGroupIds else p.securityGroupIds
  iamInstanceProfileArn := p.iamInstanceProfileArn
  subnetId := some (p.subnetId.getD service.subnetId)
  hibernationConfigured := some p.hibernationConfigured

end Ec2

section Mapper

-- the records of the database, or else of the cloud, under an id of a region
structure Reads where
  enabledRegions : List String
  securityGroup : String → String → Option SecurityGroup
  role : String → Option IamRole
  subnet : String → String → Option Subnet

variable (l : Reads)

-- interim states are mapped to running
def mapState : InstanceStateName → State
  | .stopped => .stopped
  | _ => .running

def mapped (instance' : AwsInstance) (region : String) : Instance where
  instanceId := instance'.instanceId
  ami := instance'.imageId.getD ""
  instanceType := instance'.instanceType.getD ""
  keyPairName := instance'.keyName.filter (· != "")
  state := mapState instance'.state
  userData := decodeUserData instance'.userData
  tags := some (instance'.tags.filter written)
  securityGroups := instance'.securityGroupIds.filterMap fun sgId => l.securityGroup sgId region
  role := (instance'.iamInstanceProfileArn.filter (· != "")).bind l.role
  subnet := l.subnet (instance'.subnetId.getD "") region
  hibernationEnabled := instance'.hibernationConfigured.getD false
  region

def instanceMapper (instance' : AwsInstance) (region : String) : Option Instance :=
  if Aws.truthy instance'.instanceId && Aws.truthy instance'.instanceType then
    some (mapped l instance' region)
  else none

end Mapper

section Create

variable (l : Reads) (service : Service)

-- the instances of the region's client, ctx.memo.cloud.Instance and the saved records
structure World where
  instances : Dict String AwsInstance
  memo : Dict String Instance := ∅
  saved : List Instance := []

-- the block device mappings and volumes: whether they are read, and then synchronised
structure Volumes where
  generateBlockDeviceMapping : Instance → Except Thrown Unit
  synchronise : Instance → String → Except Thrown Unit

def given {α : Type} (answer : Except Thrown α) : Prog World Thrown α :=
  match answer with
  | .ok a => pure a
  | .error err => fail err

-- a role's ARN with another resource type
def instanceProfileArn (arn : String) : String :=
  match (arn.splitOn ":role/") with
  | first :: second :: rest =>
    first ++ ":instance-profile/" ++ ":role/".intercalate (second :: rest)
  | _ => arn

def ownedTags (tags : Option (Dict String String)) : Option (Dict String String) :=
  tags.map (·.set "owner" "iasql-engine")

def instanceParams (e : Instance) : RunInstances where
  imageId := e.ami
  instanceType := e.instanceType
  tags := (ownedTags e.tags).getD ∅
  keyName := e.keyPairName
  userData := encodeUserData e.userData
  iamInstanceProfileArn := ((e.role.bind (·.arn)).filter (· != "")).map instanceProfileArn
  subnetId := e.subnet.bind (·.subnetId)
  securityGroupIds := e.securityGroups.filterMap (·.groupId)
  hibernationConfigured := e.hibernationEnabled

def unassigned : Thrown := .error "Subnet assigned but not created yet in AWS"

def unsetId : Thrown := .error "Cannot set properties of undefined (setting 'id')"

def createOne (volumes : Volumes) (e : Instance) : Prog World Thrown (Option Instance) := do
  if e.ami = "" || (e.securityGroups.any fun sg => !Aws.truthy sg.groupId) then return none
  else if e.subnet.any fun subnet => !Aws.truthy subnet.subnetId then fail unassigned
  else do
    given (volumes.generateBlockDeviceMapping e)
    let instances ← reads World.instances
    let instanceId ← given (service.runInstances instances (instanceParams e))
    if instanceId = "" then fail (.error "should not be possible")
    else do
      writes fun s =>
        { s with instances := s.instances.set instanceId (launched service (instanceParams e) instanceId) }
      given (volumes.synchronise e instanceId)
      let read ← reads fun s : World => (s.instances.get? instanceId).bind fun raw =>
        instanceMapper l raw e.region
      match read with
      | none => fail unsetId
      | some newEntity => do
        let newEntity := { newEntity with id := e.id }
        writes fun s => { s with saved := s.saved ++ [newEntity] }
        return some newEntity

def memo (e : Instance) (s : World) : World := { s with memo := s.memo.set e.entityId e }

def unmemo (e : Instance) (s : World) : World := { s with memo := s.memo.eraseAll [e.entityId] }

-- instance.cloud.create
def create (volumes : Volumes) (e : Instance) : Prog World Thrown (Option Instance) := do
  writes (memo e)
  match ← attempt (createOne l service volumes e) with
  | .ok newEntity => do
    writes fun s => newEntity.elim s fun newEntity => memo newEntity s
    return newEntity
  | .error err => do
    writes (unmemo e)
    fail err

end Create

section Update

variable (l : Reads) (service : Service) (volumes : Volumes)

-- what AWS answers to a start, a stop and a termination
structure Power where
  startInstance : String → Except Thrown Unit
  stopInstance : String → Bool → Except Thrown Unit
  terminateInstance : String → Except Thrown Unit

-- the mappings of a replaced instance, and the target groups it is registered with
structure Attachments where
  removeMappings : Instance → Except Thrown Unit
  reregister : Instance → Option Instance → Except Thrown Unit

variable (power : Power) (attachments : Attachments)

def change (insId : String) (f : AwsInstance → AwsInstance) : Prog World Thrown Unit := do
  match ← reads fun s : World => s.instances.get? insId with
  | none => fail (.error "InvalidInstanceID.NotFound")
  | some raw => writes fun s => { s with instances := s.instances.set insId (f raw) }

-- all tags are removed, and the new ones added
def updateTags (insId : String) (tags : Dict String String) : Prog World Thrown Unit :=
  change insId fun raw => { raw with tags }

def setState (insId : String) (answer : Except Thrown Unit) (state : InstanceStateName) :
    Prog World Thrown Unit := do
  given answer
  change insId fun raw => { raw with state }

def stateText : State → String
  | .running => "running"
  | .stopped => "stopped"
  | .hibernate => "hibernate"

def updateState (insId : String) (cloudState : State) (e : Instance) : Prog World Thrown Unit :=
  match cloudState, e.state with
  | .stopped, .running => setState insId (power.startInstance insId) .running
  | .running, .stopped => setState insId (power.stopInstance insId false) .stopped
  | .running, .hibernate => do
    setState insId (power.stopInstance insId true) .stopped
    writes fun s => { s with saved := s.saved ++ [{ e with state := .stopped }] }
  | _, _ => fail (.error ("Invalid instance state transition. From CLOUD state " ++ stateText cloudState ++
      " to DB state " ++ stateText e.state))

def updateInPlace (cloudRecord e : Instance) : Prog World Thrown (Option Unit) := do
  let insId := e.instanceId.getD ""
  runIf (!eqTags e.tags cloudRecord.tags && Aws.truthy e.instanceId && e.tags.isSome)
    (updateTags insId (e.tags.getD ∅))
  runIf (!(e.state == cloudRecord.state) && Aws.truthy e.instanceId)
    (updateState power insId cloudRecord.state e)
  return none

-- instance.cloud.delete
def delete (e : Instance) : Prog World Thrown Unit :=
  if !Aws.truthy e.instanceId then pure ()
  else do
    setState (e.instanceId.getD "") (power.terminateInstance (e.instanceId.getD "")) .terminated
    writes (unmemo e)

def replace (cloudRecord e : Instance) : Prog World Thrown (Option Unit) := do
  delete power cloudRecord
  given (attachments.removeMappings e)
  let created ← create l service volumes e
  given (attachments.reregister cloudRecord created)
  delete power cloudRecord
  return none

def updateOne (e : Instance) : Prog World Thrown (Option Unit) := do
  match ← reads fun s : World => s.memo.get? e.entityId with
  | none => fail (.error "Cannot read properties of undefined (reading 'instanceId')")
  | some cloudRecord =>
    if instanceEqReplaceableFields e cloudRecord then updateInPlace power cloudRecord e
    else replace l service volumes power attachments cloudRecord e

def update (es : List Instance) : Prog World Thrown Unit := do
  let _ ← forOf (updateOne l service volumes power attachments) es

variable {l service volumes power attachments}

theorem keeps_given {F : Frame World} {α : Type} (answer : Except Thrown α) : F.Keeps (given answer) := by
  cases answer with
  | ok a => exact Frame.keeps_pure a
  | error err => exact Frame.keeps_fail err

theorem update_singleton (e : Instance) (s : World) :
    (update l service volumes power attachments [e] s).2 =
      (updateOne l service volumes power attachments e s).2 := by
  refine (bind_pure_snd _ (fun _ => ()) s).trans ?_
  rcases forOf_apply (updateOne l service volumes power attachments) e [] s with hall | hstop
  · rw [hall]
    rfl
  · exact hstop

end Update

end Iasql.Instances
