import Iasql.EcsLabels

namespace Iasql.EcsSimplified

section Sync

-- what one round of the loop has to insert
structure App where
  appName : String
  desiredCount : Int
  appPort : Int
  cpuMem : String
  imageTag : Option String
  publicIp : Bool
  loadBalancerDns : Option String
  repositoryUri : Option String
  envVariables : Option String
  region : String
deriving DecidableEq

namespace Db

variable (db : Db) (s : Service)

def appPort : Option Int :=
  (db.targetGroups.find? fun t => sqlEq (some t.id) s.targetGroupId ∧ t.targetType = .ip ∧
    t.protocol = some .http ∧ t.healthCheckPath = some "/health" ∧ t.region = s.region).bind (·.port)

-- the service is looked up again by its name
def securityGroupId : Option (Option Nat) := do
  let service ← scalar (db.services.filter fun t => t.name = s.name ∧ t.region = s.region)
  return (db.serviceSecurityGroups.find? fun g =>
    sqlEq (some g.serviceId) (service.map (·.id))).map (·.securityGroupId)

def opensIngress (securityGroupId : Option Nat) (port : Option Int) : Bool :=
  exactlyOne (fun r => sqlEq r.securityGroupId securityGroupId ∧ !r.isEgress ∧
    r.ipProtocol = some "tcp" ∧ sqlEq r.fromPort port ∧ sqlEq r.toPort port ∧
    r.cidrIpv4 = some "0.0.0.0/0" ∧ r.region = s.region) db.securityGroupRules

def opensEgress (securityGroupId : Option Nat) : Bool :=
  exactlyOne (fun r => sqlEq r.securityGroupId securityGroupId ∧ r.isEgress ∧
    r.ipProtocol = some "-1" ∧ r.fromPort = some (-1) ∧ r.toPort = some (-1) ∧
    r.cidrIpv4 = some "0.0.0.0/0" ∧ r.region = s.region) db.securityGroupRules

def cpuMemory : Option String :=
  (db.taskDefinitions.find? fun t => sqlEq (some t.id) s.taskDefinitionId ∧
    sqlEq t.executionRoleName t.taskRoleName).bind fun t => t.cpuMemory.map (·.label)

def container (port : Option Int) : Option ContainerDefinition :=
  db.containerDefinitions.find? fun c => sqlEq c.taskDefinitionId s.taskDefinitionId ∧
    sqlEq c.hostPort port ∧ sqlEq c.containerPort port ∧ c.essential ∧ c.region = s.region

def repositoryName (c : Option ContainerDefinition) : Option (Option String) :=
  match c with
  | none => some none
  | some c => do
    let repository ← scalar (db.repositories.filter fun r =>
      sqlEq (some r.id) c.repositoryId ∧ r.region = s.region)
    return repository.map (·.repositoryName)

def repositoryUri (name : Option String) (c : Option ContainerDefinition) : Option String :=
  match name with
  | some name => (db.repositories.find? fun r => r.repositoryName = name ∧
      r.region = s.region).bind (·.repositoryUri)
  | none => c.bind (·.image)

def forwards (port : Option Int) : Bool :=
  exactlyOne (fun l => sqlEq (some l.port) port ∧ sqlEq (some l.targetGroupId) s.targetGroupId ∧
    l.protocol = .http ∧ l.actionType = .forward) db.listeners

def loadBalancerId (port : Option Int) : Option Nat :=
  (db.listeners.find? fun l => sqlEq (some l.port) port ∧
    sqlEq (some l.targetGroupId) s.targetGroupId).map (·.loadBalancerId)

def balances (loadBalancerId : Option Nat) : Bool :=
  exactlyOne (fun b => sqlEq (some b.id) loadBalancerId ∧ b.scheme = .internetFacing ∧
    b.loadBalancerType = .application ∧ b.ipAddressType = .ipv4 ∧ b.region = s.region)
    db.loadBalancers

def guards (loadBalancerId securityGroupId : Option Nat) : Bool :=
  exactlyOne (fun g => sqlEq (some g.loadBalancerId) loadBalancerId ∧
    sqlEq (some g.securityGroupId) securityGroupId) db.loadBalancerSecurityGroups

def loadBalancerDns (loadBalancerId : Option Nat) : Option String :=
  (db.loadBalancers.find? fun b => sqlEq (some b.id) loadBalancerId ∧
    b.region = s.region).bind (·.dnsName)

-- none inside: the service is not a simplified app; none outside: a sub-select raised
def appOf : Option (Option App) := do
  let port := db.appPort s
  let group ← db.securityGroupId s
  let c := db.container s port
  let name ← db.repositoryName s c
  let balancer := db.loadBalancerId s port
  let cpuMem := (db.cpuMemory s).getD
    (getCpuMemEnumFromParts (c.bind (·.cpu)) (c.bind (·.memory)))
  let isValid := group.isSome && db.opensIngress s group port && db.opensEgress s group &&
    db.forwards s port && db.balances s balancer && db.guards balancer group
  match port with
  | some appPort =>
    if isValid then
      return some {
        appName := splitPart s.name
        desiredCount := s.desiredCount
        appPort
        cpuMem
        imageTag := c.bind (·.tag)
        publicIp := s.assignPublicIp = .enabled
        loadBalancerDns := db.loadBalancerDns s balancer
        repositoryUri := db.repositoryUri s name c
        envVariables := c.bind (·.envVariables)
        region := s.region }
    else return none
  | none => return none

end Db

-- the INSERT of the loop gives no image_digest
def App.toRow (app : App) : Option EcsSimplified :=
  match CpuMemory.ofLabel app.cpuMem with
  | none => none
  | some cpuMem =>
    match h : varchar18 app.appName with
    | none => none
    | some appName => some {
        appName
        desiredCount := app.desiredCount
        appPort := app.appPort
        cpuMem
        repositoryUri := app.repositoryUri
        imageTag := app.imageTag
        imageDigest := none
        publicIp := app.publicIp
        loadBalancerDns := app.loadBalancerDns
        envVariables := app.envVariables
        region := app.region
        appName_length := varchar18_length h
        validImageFields := .inr rfl }

def syncStep (db : Db) (rows : List EcsSimplified) (s : Service) : Option (List EcsSimplified) := do
  match ← db.appOf s with
  | none => return rows
  | some app =>
    let row ← app.toRow
    insertUnique (fun r => r.appName = row.appName) row rows

def syncEcsSimplified (db : Db) : Option (List EcsSimplified) :=
  db.services.foldlM (syncStep db) []

end Sync

end Iasql.EcsSimplified
