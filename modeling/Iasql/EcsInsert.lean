import Iasql.EcsTables

namespace Iasql.EcsSimplified

section Inserts

variable (db : Db)

namespace Db

-- the name and the VPC are unique together, and a group of the app has no VPC
def insertSecurityGroup (row : SecurityGroup) : Option Db :=
  if row.region ∈ db.regions then
    some { db with securityGroups := db.securityGroups ++ [row], seq := db.seq + 1 }
  else none

def insertSecurityGroupRule (row : SecurityGroupRule) : Option Db := do
  let rows ← insertUnique (fun r => r.isEgress = row.isEgress ∧ sqlEq r.ipProtocol row.ipProtocol ∧
    sqlEq r.fromPort row.fromPort ∧ sqlEq r.toPort row.toPort ∧ sqlEq r.cidrIpv4 row.cidrIpv4 ∧
    sqlEq r.securityGroupId row.securityGroupId ∧ r.region = row.region) row db.securityGroupRules
  return { db with securityGroupRules := rows, seq := db.seq + 1 }

def insertTargetGroup (row : TargetGroup) : Option Db := do
  let rows ← insertUnique (fun t => t.targetGroupName = row.targetGroupName ∧
    t.region = row.region) row db.targetGroups
  return { db with targetGroups := rows, seq := db.seq + 1 }

def insertLoadBalancer (row : LoadBalancer) : Option Db := do
  let rows ← insertUnique (fun b => b.loadBalancerName = row.loadBalancerName ∧
    b.region = row.region) row db.loadBalancers
  return { db with loadBalancers := rows, seq := db.seq + 1 }

def insertLoadBalancerSecurityGroup (row : LoadBalancerSecurityGroup) : Option Db := do
  let rows ← insertUnique (· = row) row db.loadBalancerSecurityGroups
  return { db with loadBalancerSecurityGroups := rows }

def insertListener (row : Listener) : Option Db := do
  let rows ← insertUnique (fun l => l.loadBalancerId = row.loadBalancerId ∧ l.port = row.port)
    row db.listeners
  return { db with listeners := rows, seq := db.seq + 1 }

def insertLogGroup (row : LogGroup) : Option Db := do
  let rows ← insertUnique (fun l => l.logGroupName = row.logGroupName ∧ l.region = row.region)
    row db.logGroups
  return { db with logGroups := rows, seq := db.seq + 1 }

def insertCluster (row : Cluster) : Option Db := do
  let rows ← insertUnique (fun c => c.clusterName = row.clusterName ∧ c.region = row.region)
    row db.clusters
  return { db with clusters := rows, seq := db.seq + 1 }

def insertIamRole (row : IamRole) : Option Db := do
  let rows ← insertUnique (· = row) row db.iamRoles
  return { db with iamRoles := rows }

def insertTaskDefinition (row : TaskDefinition) : Option Db :=
  some { db with taskDefinitions := db.taskDefinitions ++ [row], seq := db.seq + 1 }

def insertRepository (row : Repository) : Option Db := do
  let rows ← insertUnique (fun r => r.repositoryName = row.repositoryName ∧ r.region = row.region)
    row db.repositories
  return { db with repositories := rows, seq := db.seq + 1 }

-- the two checks of the table
def insertContainerDefinition (row : ContainerDefinition) : Option Db :=
  if (row.tag = none ∨ row.digest = none) ∧
      (row.image.isSome ∨ row.repositoryId.isSome ∨ row.publicRepositoryName.isSome) then
    some { db with containerDefinitions := db.containerDefinitions ++ [row], seq := db.seq + 1 }
  else none

def insertService (row : Service) : Option Db := do
  let rows ← insertUnique (fun s => s.name = row.name ∧ s.region = row.region) row db.services
  return { db with services := rows, seq := db.seq + 1 }

def insertServiceSecurityGroup (row : ServiceSecurityGroup) : Option Db := do
  let rows ← insertUnique (· = row) row db.serviceSecurityGroups
  return { db with serviceSecurityGroups := rows }

-- ORDER BY revision DESC puts NULL first
def latestTaskDefinition (family region : String) : Option TaskDefinition :=
  ((db.taskDefinitions.filter fun t => t.family = family ∧ t.region = region).mergeSort
    fun t u => match t.revision, u.revision with
      | none, _ => true
      | some _, none => false
      | some r, some q => q ≤ r).head?

end Db

end Inserts

section Insert

def createsRepository (new : EcsSimplified) : Bool :=
  new.repositoryUri.isNone && new.imageDigest.isNone

def insertContainer (new : EcsSimplified) (db : Db) : Option Db := do
  let taskDefinition := db.taskDefinitions.find? fun t =>
    t.family = new.appName ++ "-td" ∧ t.status = none ∧ t.region = new.region
  if createsRepository new then
    let db ← db.insertRepository {
      id := db.seq, repositoryName := new.appName ++ "-repository", repositoryUri := none
      region := new.region }
    let repository ← scalar (db.repositories.filter fun r =>
      r.repositoryName = new.appName ++ "-repository" ∧ r.region = new.region)
    let logGroup ← scalar (db.logGroups.filter fun l =>
      l.logGroupName = new.appName ++ "-log-group" ∧ l.region = new.region)
    db.insertContainerDefinition {
      id := db.seq, name := new.appName ++ "-container", essential := true, image := none
      tag := none, digest := none, cpu := none, memory := none, hostPort := some new.appPort
      containerPort := some new.appPort, envVariables := new.envVariables, region := new.region
      taskDefinitionId := taskDefinition.map (·.id), repositoryId := repository.map (·.id)
      publicRepositoryName := none, logGroupId := logGroup.map (·.id) }
  else
    let logGroup ← scalar (db.logGroups.filter fun l =>
      l.logGroupName = new.appName ++ "-log-group" ∧ l.region = new.region)
    db.insertContainerDefinition {
      id := db.seq, name := new.appName ++ "-container", essential := true
      image := new.repositoryUri, tag := new.imageTag, digest := new.imageDigest, cpu := none
      memory := none, hostPort := some new.appPort, containerPort := some new.appPort
      envVariables := new.envVariables, region := new.region
      taskDefinitionId := taskDefinition.map (·.id), repositoryId := none
      publicRepositoryName := none, logGroupId := logGroup.map (·.id) }

def insertEcsSimplified (new : EcsSimplified) (db : Db) : Option Db := do
  let app := new.appName
  let securityGroupId := db.seq
  let db ← db.insertSecurityGroup {
    id := securityGroupId, groupName := app ++ "-security-group", region := new.region }
  let db ← db.insertSecurityGroupRule {
    id := db.seq, isEgress := false, ipProtocol := some "tcp", fromPort := some new.appPort
    toPort := some new.appPort, cidrIpv4 := some "0.0.0.0/0"
    securityGroupId := some securityGroupId, region := new.region }
  let db ← db.insertSecurityGroupRule {
    id := db.seq, isEgress := true, ipProtocol := some "-1", fromPort := some (-1)
    toPort := some (-1), cidrIpv4 := some "0.0.0.0/0"
    securityGroupId := some securityGroupId, region := new.region }
  let db ← db.insertTargetGroup {
    id := db.seq, targetGroupName := app ++ "-target", targetType := .ip, protocol := some .http
    port := some new.appPort, healthCheckPath := some "/health", region := new.region }
  let db ← db.insertLoadBalancer {
    id := db.seq, loadBalancerName := app ++ "-load-balancer", dnsName := none
    scheme := .internetFacing, loadBalancerType := .application, ipAddressType := .ipv4
    region := new.region }
  -- no column of the next two tables may be NULL
  let loadBalancer ← scalar (db.loadBalancers.filter fun b =>
    b.loadBalancerName = app ++ "-load-balancer")
  let loadBalancerId ← loadBalancer.map (·.id)
  let db ← db.insertLoadBalancerSecurityGroup { loadBalancerId, securityGroupId }
  let targetGroup ← scalar (db.targetGroups.filter fun t => t.targetGroupName = app ++ "-target")
  let targetGroupId ← targetGroup.map (·.id)
  let db ← db.insertListener {
    id := db.seq, loadBalancerId, port := new.appPort, protocol := .http, actionType := .forward
    targetGroupId }
  let db ← db.insertLogGroup {
    id := db.seq, logGroupName := app ++ "-log-group", region := new.region }
  let db ← db.insertCluster {
    id := db.seq, clusterName := app ++ "-cluster", region := new.region }
  let db ← db.insertIamRole { roleName := app ++ "-ecs-task-exec-role" }
  let db ← db.insertTaskDefinition {
    id := db.seq, family := app ++ "-td", revision := none, status := none
    cpuMemory := some new.cpuMem, region := new.region
    taskRoleName := some (app ++ "-ecs-task-exec-role")
    executionRoleName := some (app ++ "-ecs-task-exec-role") }
  let db ← insertContainer new db
  let cluster ← scalar (db.clusters.filter fun c =>
    c.clusterName = app ++ "-cluster" ∧ c.region = new.region)
  let targetGroup ← scalar (db.targetGroups.filter fun t =>
    t.targetGroupName = app ++ "-target" ∧ t.region = new.region)
  let db ← db.insertService {
    id := db.seq, name := app ++ "-service", desiredCount := new.desiredCount
    assignPublicIp := if new.publicIp then .enabled else .disabled, region := new.region
    clusterId := cluster.map (·.id)
    taskDefinitionId := (db.latestTaskDefinition (app ++ "-td") new.region).map (·.id)
    targetGroupId := targetGroup.map (·.id) }
  let service ← scalar (db.services.filter fun s => s.name = app ++ "-service")
  let serviceId ← service.map (·.id)
  db.insertServiceSecurityGroup { serviceId, securityGroupId }

end Insert

section Rows

-- drawn from the sequences before: the ids, and the references to them
structure Db.BelowSeq (db : Db) : Prop where
  rules : ∀ r ∈ db.securityGroupRules, ∀ g, r.securityGroupId = some g → g < db.seq
  targetGroups : ∀ t ∈ db.targetGroups, t.id < db.seq
  loadBalancers : ∀ b ∈ db.loadBalancers, b.id < db.seq
  balanced : ∀ g ∈ db.loadBalancerSecurityGroups, g.loadBalancerId < db.seq
  listeners : ∀ l ∈ db.listeners, l.loadBalancerId < db.seq ∧ l.targetGroupId < db.seq
  taskDefinitions : ∀ t ∈ db.taskDefinitions, t.id < db.seq
  repositories : ∀ r ∈ db.repositories, r.id < db.seq
  containers : ∀ c ∈ db.containerDefinitions, ∀ t, c.taskDefinitionId = some t → t < db.seq
  pulled : ∀ c ∈ db.containerDefinitions, ∀ r, c.repositoryId = some r → r < db.seq
  services : ∀ s ∈ db.services, s.id < db.seq
  defined : ∀ s ∈ db.services, ∀ t, s.taskDefinitionId = some t → t < db.seq
  targeted : ∀ s ∈ db.services, ∀ t, s.targetGroupId = some t → t < db.seq
  grouped : ∀ g ∈ db.serviceSecurityGroups, g.serviceId < db.seq ∧ g.securityGroupId < db.seq

structure Db.NoRowsOf (db : Db) (app : String) : Prop where
  targetGroups : ∀ t ∈ db.targetGroups, t.targetGroupName ≠ app ++ "-target"
  loadBalancers : ∀ b ∈ db.loadBalancers, b.loadBalancerName ≠ app ++ "-load-balancer"
  logGroups : ∀ l ∈ db.logGroups, l.logGroupName ≠ app ++ "-log-group"
  clusters : ∀ c ∈ db.clusters, c.clusterName ≠ app ++ "-cluster"
  iamRoles : ∀ r ∈ db.iamRoles, r.roleName ≠ app ++ "-ecs-task-exec-role"
  taskDefinitions : ∀ t ∈ db.taskDefinitions, t.family ≠ app ++ "-td"
  repositories : ∀ r ∈ db.repositories, r.repositoryName ≠ app ++ "-repository"
  services : ∀ s ∈ db.services, s.name ≠ app ++ "-service"

namespace EcsSimplified

variable (new : EcsSimplified) (n : Nat)

-- the rows of an app whose first id is n
def ownRepositories : List Repository :=
  if createsRepository new then
    [{ id := n + 9, repositoryName := new.appName ++ "-repository", repositoryUri := none,
       region := new.region }]
  else []

def containerId : Nat := if createsRepository new then n + 10 else n + 9

def serviceId : Nat := containerId new n + 1

def ownContainer : ContainerDefinition where
  id := containerId new n
  name := new.appName ++ "-container"
  essential := true
  image := new.repositoryUri
  tag := if createsRepository new then none else new.imageTag
  digest := new.imageDigest
  cpu := none
  memory := none
  hostPort := some new.appPort
  containerPort := some new.appPort
  envVariables := new.envVariables
  region := new.region
  taskDefinitionId := some (n + 8)
  repositoryId := if createsRepository new then some (n + 9) else none
  publicRepositoryName := none
  logGroupId := some (n + 6)

def ownService : Service where
  id := serviceId new n
  name := new.appName ++ "-service"
  desiredCount := new.desiredCount
  assignPublicIp := if new.publicIp then .enabled else .disabled
  region := new.region
  clusterId := some (n + 7)
  taskDefinitionId := some (n + 8)
  targetGroupId := some (n + 3)

def rows : Db where
  regions := []
  seq := serviceId new n + 1
  securityGroups := [
    { id := n, groupName := new.appName ++ "-security-group", region := new.region }]
  securityGroupRules := [
    { id := n + 1, isEgress := false, ipProtocol := some "tcp", fromPort := some new.appPort,
      toPort := some new.appPort, cidrIpv4 := some "0.0.0.0/0", securityGroupId := some n,
      region := new.region },
    { id := n + 2, isEgress := true, ipProtocol := some "-1", fromPort := some (-1),
      toPort := some (-1), cidrIpv4 := some "0.0.0.0/0", securityGroupId := some n,
      region := new.region }]
  targetGroups := [
    { id := n + 3, targetGroupName := new.appName ++ "-target", targetType := .ip,
      protocol := some .http, port := some new.appPort, healthCheckPath := some "/health",
      region := new.region }]
  loadBalancers := [
    { id := n + 4, loadBalancerName := new.appName ++ "-load-balancer", dnsName := none,
      scheme := .internetFacing, loadBalancerType := .application, ipAddressType := .ipv4,
      region := new.region }]
  loadBalancerSecurityGroups := [{ loadBalancerId := n + 4, securityGroupId := n }]
  listeners := [
    { id := n + 5, loadBalancerId := n + 4, port := new.appPort, protocol := .http,
      actionType := .forward, targetGroupId := n + 3 }]
  logGroups := [
    { id := n + 6, logGroupName := new.appName ++ "-log-group", region := new.region }]
  clusters := [{ id := n + 7, clusterName := new.appName ++ "-cluster", region := new.region }]
  iamRoles := [{ roleName := new.appName ++ "-ecs-task-exec-role" }]
  taskDefinitions := [
    { id := n + 8, family := new.appName ++ "-td", revision := none, status := none,
      cpuMemory := some new.cpuMem, region := new.region,
      taskRoleName := some (new.appName ++ "-ecs-task-exec-role"),
      executionRoleName := some (new.appName ++ "-ecs-task-exec-role") }]
  repositories := new.ownRepositories n
  containerDefinitions := [new.ownContainer n]
  services := [new.ownService n]
  serviceSecurityGroups := [{ serviceId := serviceId new n, securityGroupId := n }]

end EcsSimplified

-- the rows of both, with the sequences of the second
def Db.add (db rows : Db) : Db where
  regions := db.regions
  seq := rows.seq
  securityGroups := db.securityGroups ++ rows.securityGroups
  securityGroupRules := db.securityGroupRules ++ rows.securityGroupRules
  targetGroups := db.targetGroups ++ rows.targetGroups
  loadBalancers := db.loadBalancers ++ rows.loadBalancers
  loadBalancerSecurityGroups := db.loadBalancerSecurityGroups ++ rows.loadBalancerSecurityGroups
  listeners := db.listeners ++ rows.listeners
  logGroups := db.logGroups ++ rows.logGroups
  clusters := db.clusters ++ rows.clusters
  iamRoles := db.iamRoles ++ rows.iamRoles
  taskDefinitions := db.taskDefinitions ++ rows.taskDefinitions
  repositories := db.repositories ++ rows.repositories
  containerDefinitions := db.containerDefinitions ++ rows.containerDefinitions
  services := db.services ++ rows.services
  serviceSecurityGroups := db.serviceSecurityGroups ++ rows.serviceSecurityGroups

end Rows

section Inserted

variable {db : Db} {β : Type} {k : Db → Option β}

theorem bind_insertSecurityGroup {row : SecurityGroup} (h : row.region ∈ db.regions) :
    (db.insertSecurityGroup row >>= k) =
      k { db with securityGroups := db.securityGroups ++ [row], seq := db.seq + 1 } := by
  rw [Db.insertSecurityGroup, if_pos h]
  rfl

theorem bind_insertSecurityGroupRule {row : SecurityGroupRule}
    (h : ∀ r ∈ db.securityGroupRules, sqlEq r.securityGroupId row.securityGroupId = true →
      r.isEgress ≠ row.isEgress) : (db.insertSecurityGroupRule row >>= k) =
      k { db with securityGroupRules := db.securityGroupRules ++ [row], seq := db.seq + 1 } := by
  rw [Db.insertSecurityGroupRule, insertUnique_eq]
  · rfl
  · intro r hr
    refine decide_eq_false ?_
    rintro ⟨hegress, -, -, -, -, hgroup, -⟩
    exact h r hr hgroup hegress

theorem bind_insertTargetGroup {row : TargetGroup}
    (h : ∀ t ∈ db.targetGroups, t.targetGroupName ≠ row.targetGroupName) :
    (db.insertTargetGroup row >>= k) =
      k { db with targetGroups := db.targetGroups ++ [row], seq := db.seq + 1 } := by
  rw [Db.insertTargetGroup, insertUnique_eq fun t ht => decide_eq_false fun heq => h t ht heq.1]
  rfl

theorem bind_insertLoadBalancer {row : LoadBalancer}
    (h : ∀ b ∈ db.loadBalancers, b.loadBalancerName ≠ row.loadBalancerName) :
    (db.insertLoadBalancer row >>= k) =
      k { db with loadBalancers := db.loadBalancers ++ [row], seq := db.seq + 1 } := by
  rw [Db.insertLoadBalancer, insertUnique_eq fun b hb => decide_eq_false fun heq => h b hb heq.1]
  rfl

theorem bind_insertLoadBalancerSecurityGroup {row : LoadBalancerSecurityGroup}
    (h : ∀ g ∈ db.loadBalancerSecurityGroups, g.loadBalancerId ≠ row.loadBalancerId) :
    (db.insertLoadBalancerSecurityGroup row >>= k) = k { db with
      loadBalancerSecurityGroups := db.loadBalancerSecurityGroups ++ [row] } := by
  rw [Db.insertLoadBalancerSecurityGroup, insertUnique_eq]
  · rfl
  · exact fun g hg => decide_eq_false fun heq => h g hg (congrArg (·.loadBalancerId) heq)

theorem bind_insertListener {row : Listener}
    (h : ∀ l ∈ db.listeners, l.loadBalancerId ≠ row.loadBalancerId) :
    (db.insertListener row >>= k) =
      k { db with listeners := db.listeners ++ [row], seq := db.seq + 1 } := by
  rw [Db.insertListener, insertUnique_eq fun l hl => decide_eq_false fun heq => h l hl heq.1]
  rfl

theorem bind_insertLogGroup {row : LogGroup}
    (h : ∀ l ∈ db.logGroups, l.logGroupName ≠ row.logGroupName) :
    (db.insertLogGroup row >>= k) =
      k { db with logGroups := db.logGroups ++ [row], seq := db.seq + 1 } := by
  rw [Db.insertLogGroup, insertUnique_eq fun l hl => decide_eq_false fun heq => h l hl heq.1]
  rfl

theorem bind_insertCluster {row : Cluster}
    (h : ∀ c ∈ db.clusters, c.clusterName ≠ row.clusterName) : (db.insertCluster row >>= k) =
      k { db with clusters := db.clusters ++ [row], seq := db.seq + 1 } := by
  rw [Db.insertCluster, insertUnique_eq fun c hc => decide_eq_false fun heq => h c hc heq.1]
  rfl

theorem bind_insertIamRole {row : IamRole} (h : ∀ r ∈ db.iamRoles, r.roleName ≠ row.roleName) :
    (db.insertIamRole row >>= k) = k { db with iamRoles := db.iamRoles ++ [row] } := by
  rw [Db.insertIamRole, insertUnique_eq]
  · rfl
  · exact fun r hr => decide_eq_false fun heq => h r hr (congrArg (·.roleName) heq)

theorem bind_insertRepository {row : Repository}
    (h : ∀ r ∈ db.repositories, r.repositoryName ≠ row.repositoryName) :
    (db.insertRepository row >>= k) =
      k { db with repositories := db.repositories ++ [row], seq := db.seq + 1 } := by
  rw [Db.insertRepository, insertUnique_eq fun r hr => decide_eq_false fun heq => h r hr heq.1]
  rfl

theorem bind_insertService {row : Service} (h : ∀ s ∈ db.services, s.name ≠ row.name) :
    (db.insertService row >>= k) =
      k { db with services := db.services ++ [row], seq := db.seq + 1 } := by
  rw [Db.insertService, insertUnique_eq fun s hs => decide_eq_false fun heq => h s hs heq.1]
  rfl

theorem insertServiceSecurityGroup_eq {row : ServiceSecurityGroup}
    (h : ∀ g ∈ db.serviceSecurityGroups, g.serviceId ≠ row.serviceId) :
    db.insertServiceSecurityGroup row =
      some { db with serviceSecurityGroups := db.serviceSecurityGroups ++ [row] } := by
  rw [Db.insertServiceSecurityGroup, insertUnique_eq]
  · rfl
  · exact fun g hg => decide_eq_false fun heq => h g hg (congrArg (·.serviceId) heq)

theorem some_bind {α : Type} {a : α} {k : α → Option β} : (some a >>= k) = k a := rfl

theorem bind_scalar_snoc {α : Type} {p : α → Bool} {l : List α} {a : α}
    {k : Option α → Option β} (h : ∀ b ∈ l, p b = false) (ha : p a = true) :
    (scalar ((l ++ [a]).filter p) >>= k) = k (some a) := by
  rw [scalar_snoc h ha]
  rfl

theorem latestTaskDefinition_snoc {family region : String} {row : TaskDefinition}
    {l : List TaskDefinition} (hl : db.taskDefinitions = l ++ [row])
    (h : ∀ t ∈ l, t.family ≠ family) (hfamily : row.family = family)
    (hregion : row.region = region) :
    db.latestTaskDefinition family region = some row := by
  rw [Db.latestTaskDefinition, hl, filter_snoc (fun t ht => decide_eq_false fun heq => h t ht heq.1)
    (decide_eq_true ⟨hfamily, hregion⟩), List.mergeSort_singleton]
  rfl

end Inserted

section Inserting

variable {db : Db} {new : EcsSimplified}

-- the container of the app is accepted by its table
def imageGiven (new : EcsSimplified) : Bool := new.repositoryUri.isSome || new.imageDigest.isNone

theorem createsRepository_of_image (himage : imageGiven new = true)
    (h : createsRepository new = false) : new.repositoryUri.isSome = true := by
  unfold imageGiven createsRepository at *
  cases huri : new.repositoryUri with
  | none => simp_all
  | some uri => rfl

theorem le_containerId {n : Nat} : n + 9 ≤ new.containerId n := by
  unfold EcsSimplified.containerId
  split <;> omega

theorem le_serviceId {n : Nat} : n + 10 ≤ new.serviceId n :=
  Nat.succ_le_succ le_containerId

theorem insertContainer_eq {n : Nat} {logs : List LogGroup} {tasks : List TaskDefinition}
    {log : LogGroup} {task : TaskDefinition} (himage : imageGiven new = true)
    (hn : db.seq = n + 9)
    (hrepositories : ∀ r ∈ db.repositories, r.repositoryName ≠ new.appName ++ "-repository")
    (hlogs : ∀ l ∈ logs, l.logGroupName ≠ new.appName ++ "-log-group")
    (hlog : db.logGroups = logs ++ [log])
    (hlogOwn : log.logGroupName = new.appName ++ "-log-group" ∧ log.region = new.region)
    (hlogId : log.id = n + 6)
    (htasks : ∀ t ∈ tasks, t.family ≠ new.appName ++ "-td")
    (htask : db.taskDefinitions = tasks ++ [task])
    (htaskOwn : task.family = new.appName ++ "-td" ∧ task.status = none ∧ task.region = new.region)
    (htaskId : task.id = n + 8) :
    insertContainer new db = some { db with
      repositories := db.repositories ++ new.ownRepositories n
      containerDefinitions := db.containerDefinitions ++ [new.ownContainer n]
      seq := new.serviceId n } := by
  have hfound : (db.taskDefinitions.find? fun t => t.family = new.appName ++ "-td" ∧
      t.status = none ∧ t.region = new.region) = some task := by
    rw [htask]
    exact find?_snoc (fun t ht => decide_eq_false fun heq => htasks t ht heq.1)
      (decide_eq_true htaskOwn)
  have hscalar : scalar (db.logGroups.filter fun l => l.logGroupName = new.appName ++ "-log-group" ∧
      l.region = new.region) = some (some log) := by
    rw [hlog]
    exact scalar_snoc (fun l hl => decide_eq_false fun heq => hlogs l hl heq.1)
      (decide_eq_true hlogOwn)
  unfold insertContainer
  rw [hfound]
  cases hcreates : createsRepository new with
  | true =>
    have huri : new.repositoryUri = none := by
      simpa [createsRepository] using (Bool.and_eq_true_iff.mp hcreates).1
    have hdigest : new.imageDigest = none := by
      simpa [createsRepository] using (Bool.and_eq_true_iff.mp hcreates).2
    rw [if_pos rfl, bind_insertRepository hrepositories,
      bind_scalar_snoc (fun r hr => decide_eq_false fun heq => hrepositories r hr heq.1)
        (decide_eq_true ⟨rfl, rfl⟩)]
    rw [hscalar, some_bind, Db.insertContainerDefinition, if_pos (by simp)]
    simp only [Option.map_some, EcsSimplified.ownRepositories, EcsSimplified.ownContainer,
      EcsSimplified.serviceId, EcsSimplified.containerId, hcreates, hn, htaskId, hlogId, huri,
      hdigest, if_true]
  | false =>
    have huri := createsRepository_of_image himage hcreates
    rw [if_neg Bool.false_ne_true, hscalar, some_bind, Db.insertContainerDefinition,
      if_pos ⟨new.validImageFields, .inl huri⟩]
    simp only [Option.map_some, EcsSimplified.ownRepositories, EcsSimplified.ownContainer,
      EcsSimplified.serviceId, EcsSimplified.containerId, hcreates, hn, htaskId, hlogId,
      Bool.false_eq_true, if_false, List.append_nil]

theorem insertEcsSimplified_eq (hseq : db.BelowSeq) (hnone : db.NoRowsOf new.appName)
    (hregion : new.region ∈ db.regions) (himage : imageGiven new = true) :
    insertEcsSimplified new db = some (db.add (new.rows db.seq)) := by
  have hrules : ∀ r ∈ db.securityGroupRules,
      sqlEq r.securityGroupId (some db.seq) = false :=
    fun r hr => eq_false_of_ne_true (not_sqlEq_above (hseq.rules r hr) (Nat.le_refl _))
  have hbalancers : ∀ g ∈ db.loadBalancerSecurityGroups, g.loadBalancerId ≠ db.seq + 4 := by
    intro g hg
    have hlt := hseq.balanced g hg
    omega
  have hlisteners : ∀ l ∈ db.listeners, l.loadBalancerId ≠ db.seq + 4 := by
    intro l hl
    have hlt := (hseq.listeners l hl).1
    omega
  have hgroups : ∀ g ∈ db.serviceSecurityGroups, g.serviceId ≠ new.serviceId db.seq := by
    intro g hg
    have hlt := (hseq.grouped g hg).1
    unfold EcsSimplified.serviceId EcsSimplified.containerId
    split <;> omega
  have hclusters : ∀ c ∈ db.clusters,
      decide (c.clusterName = new.appName ++ "-cluster" ∧ c.region = new.region) = false :=
    fun c hc => decide_eq_false fun heq => hnone.clusters c hc heq.1
  have htargets : ∀ t ∈ db.targetGroups,
      decide (t.targetGroupName = new.appName ++ "-target" ∧ t.region = new.region) = false :=
    fun t ht => decide_eq_false fun heq => hnone.targetGroups t ht heq.1
  unfold insertEcsSimplified
  rw [bind_insertSecurityGroup hregion]
  rw [bind_insertSecurityGroupRule fun r hr heq => by
    have hfalse := hrules r hr
    exact absurd heq (by simp [hfalse])]
  dsimp only
  rw [bind_insertSecurityGroupRule fun r hr heq => by
    obtain hr | hr := List.mem_append.mp hr
    · have hfalse := hrules r hr
      exact absurd heq (by simp [hfalse])
    · rw [List.mem_singleton.mp hr]
      exact Bool.false_ne_true]
  dsimp only
  rw [bind_insertTargetGroup hnone.targetGroups]
  dsimp only
  rw [bind_insertLoadBalancer hnone.loadBalancers]
  dsimp only
  rw [bind_scalar_snoc (fun b hb => decide_eq_false (hnone.loadBalancers b hb)) (decide_eq_true rfl),
    Option.map_some, some_bind, bind_insertLoadBalancerSecurityGroup hbalancers]
  dsimp only
  rw [bind_scalar_snoc (fun t ht => decide_eq_false (hnone.targetGroups t ht)) (decide_eq_true rfl),
    Option.map_some, some_bind, bind_insertListener hlisteners]
  dsimp only
  rw [bind_insertLogGroup (by exact hnone.logGroups)]
  dsimp only
  rw [bind_insertCluster (by exact hnone.clusters)]
  dsimp only
  rw [bind_insertIamRole (by exact hnone.iamRoles)]
  dsimp only [Db.insertTaskDefinition]
  rw [some_bind]
  rw [insertContainer_eq (n := db.seq) himage (by rfl) (by exact hnone.repositories)
    (by exact hnone.logGroups) (by rfl) (by exact ⟨rfl, rfl⟩) (by rfl)
    (by exact hnone.taskDefinitions) (by rfl) (by exact ⟨rfl, rfl, rfl⟩) (by rfl), some_bind]
  dsimp only
  rw [bind_scalar_snoc (by exact hclusters) (by exact decide_eq_true ⟨rfl, rfl⟩),
    bind_scalar_snoc (by exact htargets) (by exact decide_eq_true ⟨rfl, rfl⟩),
    latestTaskDefinition_snoc (by rfl) (by exact hnone.taskDefinitions) (by rfl) (by rfl),
    bind_insertService (by exact hnone.services)]
  dsimp only
  rw [bind_scalar_snoc (by exact fun s hs => decide_eq_false (hnone.services s hs))
      (by exact decide_eq_true rfl), Option.map_some, some_bind,
    insertServiceSecurityGroup_eq (by exact hgroups)]
  simp only [Db.add, EcsSimplified.rows, EcsSimplified.ownService, Option.map_some,
    List.append_assoc, List.cons_append, List.nil_append]

theorem region_of_insert {db' : Db} (h : insertEcsSimplified new db = some db') :
    new.region ∈ db.regions := by
  obtain ⟨first, hfirst, -⟩ := Option.bind_eq_some_iff.mp h
  by_contra hregion
  rw [Db.insertSecurityGroup, if_neg hregion] at hfirst
  cases hfirst

theorem insertContainer_eq_none (himage : imageGiven new = false) :
    insertContainer new db = none := by
  obtain ⟨huri, hdigest⟩ := Bool.or_eq_false_iff.mp himage
  have huri : new.repositoryUri = none := by simpa using huri
  have hcreates : createsRepository new = false := by
    rw [createsRepository, hdigest, Bool.and_false]
  unfold insertContainer
  simp only [hcreates, huri, Bool.false_eq_true, if_false, Db.insertContainerDefinition,
    Option.isSome_none, or_self, and_false, Option.bind_eq_bind, Option.bind_fun_none]

theorem imageGiven_of_insert {db' : Db} (h : insertEcsSimplified new db = some db') :
    imageGiven new = true := by
  by_contra himage
  have hnone : ∀ db, insertContainer new db = none :=
    fun db => insertContainer_eq_none (Bool.eq_false_iff.mpr himage)
  simp only [insertEcsSimplified, hnone, Option.bind_eq_bind, Option.bind_none,
    Option.bind_fun_none, reduceCtorEq] at h

theorem insertSecurityGroup_loadBalancers {row : SecurityGroup} {db' : Db}
    (h : db.insertSecurityGroup row = some db') : db'.loadBalancers = db.loadBalancers := by
  unfold Db.insertSecurityGroup at h
  split at h
  · cases h
    rfl
  · cases h

theorem insertSecurityGroupRule_loadBalancers {row : SecurityGroupRule} {db' : Db}
    (h : db.insertSecurityGroupRule row = some db') : db'.loadBalancers = db.loadBalancers := by
  obtain ⟨rows, -, heq⟩ := Option.bind_eq_some_iff.mp h
  cases heq
  rfl

theorem insertTargetGroup_loadBalancers {row : TargetGroup} {db' : Db}
    (h : db.insertTargetGroup row = some db') : db'.loadBalancers = db.loadBalancers := by
  obtain ⟨rows, -, heq⟩ := Option.bind_eq_some_iff.mp h
  cases heq
  rfl

-- the sub-select by the name alone raises when the app is there already
theorem fresh_of_insert {db' : Db} (h : insertEcsSimplified new db = some db') :
    ∀ b ∈ db.loadBalancers, b.loadBalancerName ≠ new.appName ++ "-load-balancer" := by
  obtain ⟨d₁, h₁, h⟩ := Option.bind_eq_some_iff.mp h
  obtain ⟨d₂, h₂, h⟩ := Option.bind_eq_some_iff.mp h
  obtain ⟨d₃, h₃, h⟩ := Option.bind_eq_some_iff.mp h
  obtain ⟨d₄, h₄, h⟩ := Option.bind_eq_some_iff.mp h
  obtain ⟨d₅, h₅, h⟩ := Option.bind_eq_some_iff.mp h
  obtain ⟨loadBalancer, hscalar, -⟩ := Option.bind_eq_some_iff.mp h
  have hsame : d₄.loadBalancers = db.loadBalancers :=
    (insertTargetGroup_loadBalancers h₄).trans <|
      (insertSecurityGroupRule_loadBalancers h₃).trans <|
        (insertSecurityGroupRule_loadBalancers h₂).trans (insertSecurityGroup_loadBalancers h₁)
  obtain ⟨rows, hrows, heq⟩ := Option.bind_eq_some_iff.mp h₅
  cases heq
  have hone := scalar_isSome_iff.mp (Option.isSome_iff_exists.mpr ⟨loadBalancer, hscalar⟩)
  dsimp only at hone
  rw [(insertUnique_eq_some_iff.mp hrows).1, hsame, List.filter_append, List.length_append] at hone
  rw [List.filter_singleton, decide_eq_true rfl, cond_true, List.length_singleton] at hone
  have hnone : db.loadBalancers.filter
      (fun b => b.loadBalancerName = new.appName ++ "-load-balancer") = [] :=
    List.length_eq_zero_iff.mp (by omega)
  intro b hb hname
  exact List.filter_eq_nil_iff.mp hnone b hb (decide_eq_true hname)

end Inserting

end Iasql.EcsSimplified
