import Iasql.EcsInsert

namespace Iasql.EcsSimplified

section Deletes

variable (db : Db)

-- a key that points into the rows deleted; a NULL points nowhere
def refers {α : Type} [DecidableEq α] (deleted : List α) (key : Option α) : Bool :=
  key.any (· ∈ deleted)

namespace Db

def deleteServiceSecurityGroups (serviceId : Option Nat) : Db :=
  { db with serviceSecurityGroups := db.serviceSecurityGroups.filter fun g =>
      !sqlEq (some g.serviceId) serviceId }

-- the join tables cascade from both sides
def deleteServices (name : String) : Db :=
  let deleted := (db.services.filter (·.name = name)).map (·.id)
  { db with
    services := db.services.filter (·.name ≠ name)
    serviceSecurityGroups := db.serviceSecurityGroups.filter fun g =>
      !refers deleted (some g.serviceId) }

-- USING task_definition
def deleteContainerDefinitions (family : String) : Db :=
  { db with containerDefinitions := db.containerDefinitions.filter fun c =>
      !db.taskDefinitions.any fun t => sqlEq c.taskDefinitionId (some t.id) ∧ t.family = family }

def deleteTaskDefinitions (family : String) : Option Db :=
  let deleted := (db.taskDefinitions.filter (·.family = family)).map (·.id)
  if db.services.any fun s => refers deleted s.taskDefinitionId then none
  else some { db with
    taskDefinitions := db.taskDefinitions.filter (·.family ≠ family)
    containerDefinitions := db.containerDefinitions.filter fun c =>
      !refers deleted c.taskDefinitionId }

def deleteIamRole (name : String) : Option Db :=
  let deleted := (db.iamRoles.filter (·.roleName = name)).map (·.roleName)
  if db.taskDefinitions.any fun t =>
    refers deleted t.taskRoleName || refers deleted t.executionRoleName then none
  else some { db with iamRoles := db.iamRoles.filter (·.roleName ≠ name) }

def deleteClusters (name : String) : Option Db :=
  let deleted := (db.clusters.filter (·.clusterName = name)).map (·.id)
  if db.services.any fun s => refers deleted s.clusterId then none
  else some { db with clusters := db.clusters.filter (·.clusterName ≠ name) }

def deleteRepositories (name : String) : Option Db :=
  let deleted := (db.repositories.filter (·.repositoryName = name)).map fun r => (r.id, r.region)
  if db.containerDefinitions.any fun c => refers deleted (c.repositoryId.map (·, c.region)) then none
  else some { db with repositories := db.repositories.filter (·.repositoryName ≠ name) }

def deleteLogGroups (name : String) : Option Db :=
  let deleted := (db.logGroups.filter (·.logGroupName = name)).map (·.id)
  if db.containerDefinitions.any fun c => refers deleted c.logGroupId then none
  else some { db with logGroups := db.logGroups.filter (·.logGroupName ≠ name) }

def deleteListeners (loadBalancerId targetGroupId : Option Nat) : Db :=
  { db with listeners := db.listeners.filter fun l =>
      !(sqlEq (some l.loadBalancerId) loadBalancerId && sqlEq (some l.targetGroupId) targetGroupId) }

def deleteLoadBalancerSecurityGroups (loadBalancerId : Option Nat) : Db :=
  { db with loadBalancerSecurityGroups := db.loadBalancerSecurityGroups.filter fun g =>
      !sqlEq (some g.loadBalancerId) loadBalancerId }

def deleteLoadBalancers (name : String) : Option Db :=
  let deleted := (db.loadBalancers.filter (·.loadBalancerName = name)).map (·.id)
  if db.listeners.any fun l => refers deleted (some l.loadBalancerId) then none
  else some { db with
    loadBalancers := db.loadBalancers.filter (·.loadBalancerName ≠ name)
    loadBalancerSecurityGroups := db.loadBalancerSecurityGroups.filter fun g =>
      !refers deleted (some g.loadBalancerId) }

def deleteTargetGroups (name : String) : Option Db :=
  let deleted := (db.targetGroups.filter (·.targetGroupName = name)).map (·.id)
  if (db.listeners.any fun l => refers deleted (some l.targetGroupId)) ||
    db.services.any fun s => refers deleted s.targetGroupId then none
  else some { db with targetGroups := db.targetGroups.filter (·.targetGroupName ≠ name) }

-- USING security_group
def deleteSecurityGroupRules (name : String) : Db :=
  { db with securityGroupRules := db.securityGroupRules.filter fun r =>
      !db.securityGroups.any fun g => sqlEq (some g.id) r.securityGroupId ∧ g.groupName = name }

def deleteSecurityGroups (name : String) : Option Db :=
  let deleted := db.securityGroups.filter (·.groupName = name)
  if db.securityGroupRules.any fun r =>
    refers (deleted.map fun g => (g.id, g.region)) (r.securityGroupId.map (·, r.region)) then none
  else some { db with
    securityGroups := db.securityGroups.filter (·.groupName ≠ name)
    serviceSecurityGroups := db.serviceSecurityGroups.filter fun g =>
      !refers (deleted.map (·.id)) (some g.securityGroupId)
    loadBalancerSecurityGroups := db.loadBalancerSecurityGroups.filter fun g =>
      !refers (deleted.map (·.id)) (some g.securityGroupId) }

end Db

-- an image by its digest came with no repository
def deleteRepository (old : EcsSimplified) (db : Db) : Option Db :=
  if old.imageDigest.isNone then db.deleteRepositories (old.appName ++ "-repository") else some db

def deleteEcsSimplified (old : EcsSimplified) (db : Db) : Option Db := do
  let app := old.appName
  let service ← scalar (db.services.filter (·.name = app ++ "-service"))
  let db := db.deleteServiceSecurityGroups (service.map (·.id))
  let db := db.deleteServices (app ++ "-service")
  let db := db.deleteContainerDefinitions (app ++ "-td")
  let db ← db.deleteTaskDefinitions (app ++ "-td")
  let db ← db.deleteIamRole (app ++ "-ecs-task-exec-role")
  let db ← db.deleteClusters (app ++ "-cluster")
  let db ← deleteRepository old db
  let db ← db.deleteLogGroups (app ++ "-log-group")
  let loadBalancer ← scalar (db.loadBalancers.filter (·.loadBalancerName = app ++ "-load-balancer"))
  let targetGroup ← scalar (db.targetGroups.filter (·.targetGroupName = app ++ "-target"))
  let db := db.deleteListeners (loadBalancer.map (·.id)) (targetGroup.map (·.id))
  let db := db.deleteLoadBalancerSecurityGroups (loadBalancer.map (·.id))
  let db ← db.deleteLoadBalancers (app ++ "-load-balancer")
  let db ← db.deleteTargetGroups (app ++ "-target")
  let db := db.deleteSecurityGroupRules (app ++ "-security-group")
  db.deleteSecurityGroups (app ++ "-security-group")

end Deletes

section Deleted

variable {db db' : Db} {old : EcsSimplified} {α : Type}

theorem eq_of_guarded {c : Prop} [Decidable c] {x y : α}
    (h : (if c then none else some x) = some y) : y = x := by
  split at h
  · cases h
  · exact (Option.some.inj h).symm

theorem deleteRepository_eq (h : deleteRepository old db = some db') :
    db' = { db with repositories :=
      if old.imageDigest.isNone then
        db.repositories.filter (·.repositoryName ≠ old.appName ++ "-repository")
      else db.repositories } := by
  unfold deleteRepository at h
  split at h
  · next hnone =>
    rw [if_pos hnone]
    exact eq_of_guarded h
  · next hsome =>
    rw [if_neg hsome]
    exact (Option.some.inj h).symm

def serviceIds (app : String) (db : Db) : List Nat :=
  (db.services.filter (·.name = app ++ "-service")).map (·.id)

def taskDefinitionIds (app : String) (db : Db) : List Nat :=
  (db.taskDefinitions.filter (·.family = app ++ "-td")).map (·.id)

def loadBalancerIds (app : String) (db : Db) : List Nat :=
  (db.loadBalancers.filter (·.loadBalancerName = app ++ "-load-balancer")).map (·.id)

def securityGroupIds (app : String) (db : Db) : List Nat :=
  (db.securityGroups.filter (·.groupName = app ++ "-security-group")).map (·.id)

-- every table is the one before less the app's rows, or nothing is deleted
theorem deleteEcsSimplified_eq (h : deleteEcsSimplified old db = some db') :
    ∃ service loadBalancer targetGroup,
      scalar (db.services.filter (·.name = old.appName ++ "-service")) = some service ∧
      scalar (db.loadBalancers.filter (·.loadBalancerName = old.appName ++ "-load-balancer")) =
        some loadBalancer ∧
      scalar (db.targetGroups.filter (·.targetGroupName = old.appName ++ "-target")) =
        some targetGroup ∧
      db' = { db with
        securityGroups := db.securityGroups.filter (·.groupName ≠ old.appName ++ "-security-group")
        securityGroupRules := db.securityGroupRules.filter fun r =>
          !db.securityGroups.any fun g => sqlEq (some g.id) r.securityGroupId ∧
            g.groupName = old.appName ++ "-security-group"
        targetGroups := db.targetGroups.filter (·.targetGroupName ≠ old.appName ++ "-target")
        loadBalancers := db.loadBalancers.filter
          (·.loadBalancerName ≠ old.appName ++ "-load-balancer")
        loadBalancerSecurityGroups := ((db.loadBalancerSecurityGroups.filter fun g =>
          !sqlEq (some g.loadBalancerId) (loadBalancer.map (·.id))).filter fun g =>
          !refers (loadBalancerIds old.appName db) (some g.loadBalancerId)).filter fun g =>
          !refers (securityGroupIds old.appName db) (some g.securityGroupId)
        listeners := db.listeners.filter fun l =>
          !(sqlEq (some l.loadBalancerId) (loadBalancer.map (·.id)) &&
            sqlEq (some l.targetGroupId) (targetGroup.map (·.id)))
        logGroups := db.logGroups.filter (·.logGroupName ≠ old.appName ++ "-log-group")
        clusters := db.clusters.filter (·.clusterName ≠ old.appName ++ "-cluster")
        iamRoles := db.iamRoles.filter (·.roleName ≠ old.appName ++ "-ecs-task-exec-role")
        taskDefinitions := db.taskDefinitions.filter (·.family ≠ old.appName ++ "-td")
        repositories :=
          if old.imageDigest.isNone then
            db.repositories.filter (·.repositoryName ≠ old.appName ++ "-repository")
          else db.repositories
        containerDefinitions := (db.containerDefinitions.filter fun c =>
          !db.taskDefinitions.any fun t => sqlEq c.taskDefinitionId (some t.id) ∧
            t.family = old.appName ++ "-td").filter fun c =>
          !refers (taskDefinitionIds old.appName db) c.taskDefinitionId
        services := db.services.filter (·.name ≠ old.appName ++ "-service")
        serviceSecurityGroups := ((db.serviceSecurityGroups.filter fun g =>
          !sqlEq (some g.serviceId) (service.map (·.id))).filter fun g =>
          !refers (serviceIds old.appName db) (some g.serviceId)).filter fun g =>
          !refers (securityGroupIds old.appName db) (some g.securityGroupId) } := by
  obtain ⟨service, hservice, h⟩ := Option.bind_eq_some_iff.mp h
  obtain ⟨d₁, h₁, h⟩ := Option.bind_eq_some_iff.mp h
  obtain ⟨d₂, h₂, h⟩ := Option.bind_eq_some_iff.mp h
  obtain ⟨d₃, h₃, h⟩ := Option.bind_eq_some_iff.mp h
  obtain ⟨d₄, h₄, h⟩ := Option.bind_eq_some_iff.mp h
  obtain ⟨d₅, h₅, h⟩ := Option.bind_eq_some_iff.mp h
  obtain ⟨loadBalancer, hbalancer, h⟩ := Option.bind_eq_some_iff.mp h
  obtain ⟨targetGroup, htarget, h⟩ := Option.bind_eq_some_iff.mp h
  obtain ⟨d₆, h₆, h⟩ := Option.bind_eq_some_iff.mp h
  obtain ⟨d₇, h₇, h⟩ := Option.bind_eq_some_iff.mp h
  have e₁ := eq_of_guarded h₁
  dsimp only [Db.deleteServiceSecurityGroups, Db.deleteServices,
    Db.deleteContainerDefinitions] at e₁
  subst e₁
  have e₂ := eq_of_guarded h₂
  dsimp only at e₂
  subst e₂
  have e₃ := eq_of_guarded h₃
  dsimp only at e₃
  subst e₃
  have e₄ := deleteRepository_eq h₄
  dsimp only at e₄
  subst e₄
  have e₅ := eq_of_guarded h₅
  dsimp only at e₅
  subst e₅
  have e₆ := eq_of_guarded h₆
  dsimp only [Db.deleteListeners, Db.deleteLoadBalancerSecurityGroups] at e₆
  subst e₆
  have e₇ := eq_of_guarded h₇
  dsimp only at e₇
  subst e₇
  have e₈ := eq_of_guarded h
  dsimp only [Db.deleteSecurityGroupRules] at e₈
  exact ⟨service, loadBalancer, targetGroup, hservice, hbalancer, htarget, e₈⟩

end Deleted

end Iasql.EcsSimplified
