import Iasql.Calculus.Dict
import Iasql.ContainerImages

namespace Iasql.ContainerDefinitions

open Aws

section Entities

inductive TransportProtocol where
  | tcp | udp
deriving DecidableEq

-- the address that AWS gives a repository, in a registry of the account or in the public one
def PrivateUri (repositoryUri repositoryName : String) : Prop :=
  ∃ registry, repositoryUri = registry ++ "/" ++ repositoryName ∧
    includes "amazonaws.com" registry = true ∧ '@' ∉ repositoryUri.toList ∧ ':' ∉ repositoryUri.toList

def PublicUri (repositoryUri repositoryName : String) : Prop :=
  ∃ registryAlias, repositoryUri = "public.ecr.aws/" ++ registryAlias ++ "/" ++ repositoryName ∧
    repositoryName ≠ "" ∧ '@' ∉ repositoryUri.toList ∧ ':' ∉ repositoryUri.toList

-- a repository that is read of AWS has no id
structure Repository where
  id : Option Nat := none
  repositoryName : String
  repositoryUri : Option String := none
  located : ∀ uri ∈ repositoryUri, PrivateUri uri repositoryName
  region : String

-- a read without a name gives all of them, and an array has no name
structure PublicRepository where
  repositoryName : Option String
  repositoryUri : Option String := none
  located : ∀ uri ∈ repositoryUri, ∃ name, repositoryName = some name ∧ PublicUri uri name

structure LogGroup where
  id : Option Nat := none
  logGroupName : String
  logGroupArn : Option String := none
  region : String
deriving DecidableEq

structure ContainerDefinition where
  id : Option Nat := none
  name : String
  image : Option String := none
  tag : Option String := none
  digest : Option String := none
  repository : Option Repository := none
  publicRepository : Option PublicRepository := none
  essential : Bool := false
  cpu : Option Int := none
  memory : Option Int := none
  memoryReservation : Option Int := none
  hostPort : Option Int := none
  containerPort : Option Int := none
  protocol : Option TransportProtocol := none
  envVariables : Option (Dict String JsVal) := none
  logGroup : Option LogGroup := none
  region : String

-- the checks of the table
structure Accepted (c : ContainerDefinition) : Prop where
  image : c.image = none → c.repository.isSome = true ∨ c.publicRepository.isSome = true
  tag : c.tag = none ∨ c.digest = none

-- of two records, no array and no object is the same
def objectIs : JsVal → JsVal → Bool
  | .null, .null => true
  | .bool a, .bool b => a == b
  | .num a, .num b => decide (a = b)
  | .str a, .str b => a == b
  | _, _ => false

-- find gives the key, which counts as not found where it is empty
def envVariablesEq (a b : Dict String JsVal) : Bool :=
  a.keys.length == b.keys.length &&
    a.entries.all fun av =>
      ((b.entries.find? fun bv => av.1 == bv.1 && objectIs av.2 bv.2).map (·.1)).any (· != "")

def containersEq (a b : ContainerDefinition) : Bool :=
  a.cpu == b.cpu && envVariablesEq (a.envVariables.getD ∅) (b.envVariables.getD ∅) &&
    a.essential == b.essential &&
    a.logGroup.bind (·.logGroupArn) == b.logGroup.bind (·.logGroupArn) &&
    a.memory == b.memory && a.memoryReservation == b.memoryReservation && a.name == b.name &&
    a.containerPort == b.containerPort && a.hostPort == b.hostPort && a.protocol == b.protocol &&
    a.publicRepository.bind (·.repositoryName) == b.publicRepository.bind (·.repositoryName) &&
    a.repository.bind (·.id) == b.repository.bind (·.id) && a.image == b.image &&
    a.digest == b.digest && a.tag == b.tag

end Entities

section Create

structure PortMapping where
  containerPort : Option Int
  hostPort : Option Int
  protocol : Option TransportProtocol
deriving DecidableEq

structure LogConfiguration where
  logDriver : String
  group : String
  region : String
  streamPrefix : String
deriving DecidableEq

-- a container of a task definition of AWS
structure Container where
  name : String
  image : Option String
  cpu : Option Int
  memory : Option Int
  memoryReservation : Option Int
  essential : Bool
  environment : List (String × String)
  portMappings : Option (List PortMapping)
  logConfiguration : Option LogConfiguration
deriving DecidableEq

variable (numberText : ℚ → String)

-- a value in a template, and as an element of an array that is joined
mutual
def valueText : JsVal → String
  | .null => "null"
  | .bool b => if b then "true" else "false"
  | .num q => numberText q
  | .str s => s
  | .arr xs => ",".intercalate (elementTexts xs)
  | .obj _ => "[object Object]"

def elementTexts : List JsVal → List String
  | [] => []
  | .null :: xs => "" :: elementTexts xs
  | x :: xs => valueText x :: elementTexts xs
end

def imageOf (c : ContainerDefinition) : Except Thrown (Option String) :=
  if Aws.truthy c.image then .ok c.image
  else
    match c.repository, c.publicRepository with
    | some repository, _ =>
      if Aws.truthy repository.repositoryUri then .ok repository.repositoryUri
      else .error (.error "Repository need to be created first")
    | none, some publicRepository =>
      if Aws.truthy publicRepository.repositoryUri then .ok publicRepository.repositoryUri
      else .error (.error "Public repository need to be created first")
    | none, none => .ok none

def truthyPort (port : Option Int) : Bool := port.any (· ≠ 0)

-- the part of cloud.create that makes a container of a definition, in the region of the client
def toContainer (clientRegion : String) (c : ContainerDefinition) : Except Thrown Container :=
  (imageOf c).map fun image => {
    name := c.name
    image := encodeImage image c.digest c.tag
    cpu := c.cpu
    memory := c.memory
    memoryReservation := c.memoryReservation
    essential := c.essential
    environment := (c.envVariables.getD ∅).entries.map fun ev => (ev.1, valueText numberText ev.2)
    portMappings :=
      if truthyPort c.containerPort && truthyPort c.hostPort && c.protocol.isSome then
        some [⟨c.containerPort, c.hostPort, c.protocol⟩]
      else none
    logConfiguration := c.logGroup.map fun logGroup =>
      ⟨"awslogs", logGroup.logGroupName, clientRegion, "awslogs-" ++ c.name⟩
  }

end Create

section Mapper

-- the records that the database, or else AWS, has; an error counts as no repository
structure Known where
  repository : String → String → Option Repository
  publicRepository : String → Option PublicRepository
  named : ∀ name p, publicRepository name = some p → p.repositoryName = some name
  logGroup : String → String → Except Thrown (Option LogGroup)

variable (known : Known)

-- an assignment to it sets no key
def proto : String := "__proto__"

def readEnvironment (environment : List (String × String)) : Dict String JsVal :=
  Dict.ofList ((environment.filter (·.1 ≠ proto)).map fun ev => (ev.1, .str ev.2))

def readPublicRepository (name : String) : Option PublicRepository :=
  if name = "" then some { repositoryName := none, located := by rintro _ ⟨⟩ }
  else known.publicRepository name

def readRepositories (region : String) : Option String → Option Repository × Option PublicRepository
  | none => (none, none)
  | some image =>
    if includes "amazonaws.com" image then (known.repository (lastPart image) region, none)
    else if includes "public.ecr.aws" image then (none, readPublicRepository known (lastPart image))
    else (none, none)

def readLogGroup (region : String) : Option LogConfiguration → Except Thrown (Option LogGroup)
  | none => .ok none
  | some log => if log.logDriver = "awslogs" then known.logGroup log.group region else .ok none

def containerDefinitionMapper (region : String) (c : Container) : Except Thrown ContainerDefinition :=
  let portMapping := (c.portMappings.getD []).getLast?
  let decoded := decodeImage c.image
  let repositories := readRepositories known region decoded.containerImage
  (readLogGroup known region c.logConfiguration).map fun logGroup => {
    cpu := c.cpu
    envVariables := some (readEnvironment c.environment)
    essential := c.essential
    memory := c.memory
    memoryReservation := c.memoryReservation
    name := c.name
    containerPort := portMapping.bind (·.containerPort)
    hostPort := portMapping.bind (·.hostPort)
    protocol := portMapping.bind (·.protocol)
    digest := decoded.digest
    tag := decoded.tag
    repository := repositories.1
    publicRepository := repositories.2
    image := if repositories.1.isNone && repositories.2.isNone then decoded.containerImage else none
    logGroup
    region
  }

end Mapper

end Iasql.ContainerDefinitions
