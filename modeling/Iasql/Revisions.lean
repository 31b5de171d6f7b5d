import Iasql.RdsUpdate
import Iasql.RouteTableUpdate
import Iasql.SubnetGroupUpdate

namespace Iasql

open Aws

-- a record that may have been edited, and the record read of AWS with its id; AWS accepts requests
inductive Revision where
  | dbCluster (l : Rds.ClusterReads) (aws : Rds.AwsDBCluster) (e c : Rds.DBCluster)
    (read : Rds.dbClusterMapper l aws e.region = some c)
  | rds (l : Rds.InstanceReads) (aws : Rds.AwsDBInstance) (e c : Rds.RDS)
    (outside : e.dbCluster = none) (read : Rds.rdsMapper l aws e.region = some c)
  | subnetGroup (network : MemoryDB.Network) (refuses : MemoryDB.Refusal)
    (accepts : ∀ input, refuses input = none) (aws : MemoryDB.AwsSubnetGroup)
    (e c : MemoryDB.SubnetGroup) (read : MemoryDB.subnetGroupMapper aws e.region = some c)
  | routeTable (l : RouteTables.VpcReads) (client : RouteTables.Client)
    (deletes : ∀ id, client.deleteRouteTable id = .ok ()) (aws : RouteTables.AwsRouteTable)
    (e c : RouteTables.RouteTable) (read : RouteTables.routeTableMapper l aws e.region = some c)

namespace Revision

-- what findDiff asks
def isEqual : Revision → Bool
  | dbCluster _ _ e c _ => e.equals c
  | rds _ _ e c _ _ => e.equals c
  | subnetGroup _ _ _ _ e c _ => MemoryDB.equals e c
  | routeTable _ _ _ _ e c _ => RouteTables.equals e c

def Reached : Revision → Prop
  | dbCluster l aws e c _ => Rds.Reached l c e aws
  | rds l aws e c _ _ => Rds.InstanceReached l c e aws
  | subnetGroup network refuses _ aws e c _ => MemoryDB.Reached network refuses c e aws
  | routeTable l client _ aws e c _ => RouteTables.Reached l client c e aws

def Meets : Revision → Prop
  | dbCluster _ aws e c _ => Rds.Meets e c aws
  | rds _ _ e c _ _ => Rds.InstanceMeets e c
  | subnetGroup network _ _ _ e c _ => MemoryDB.Meets network e c
  | routeTable l _ _ _ e c _ => RouteTables.Meets l e c

-- an edit that is detected reaches the cloud
def Pushed (r : Revision) : Prop := r.isEqual = false → r.Reached

theorem pushed_iff (r : Revision) : r.Pushed ↔ (r.isEqual = false → r.Meets) := by
  refine imp_congr Iff.rfl ?_
  cases r with
  | dbCluster l aws e c read => exact Rds.reached_iff read
  | rds l aws e c outside read => exact Rds.instanceReached_iff read outside
  | subnetGroup network refuses accepts aws e c read => exact MemoryDB.reached_iff read accepts
  | routeTable l client deletes aws e c read => exact RouteTables.reached_iff read deletes

section Reverted

def group (id : String) : SecurityGroups.SecurityGroup := { groupId := some id }

def groupReads : Edits.GroupReads where
  securityGroup := group
  groupId := fun _ => rfl

def clusterReads : Rds.ClusterReads := { groupReads with subnetGroup := fun _ => none }

def instanceReads : Rds.InstanceReads :=
  { groupReads with
    availabilityZone := fun name => some ⟨name⟩
    parameterGroup := fun _ => none
    dbCluster := fun _ => none }

def vpcReads : RouteTables.VpcReads where
  vpc := fun id => some { vpcId := some id, region := "us-east-1" }
  vpcId := fun id v h => by
    cases h
    rfl

def cluster : Rds.AwsDBCluster :=
  { dbClusterIdentifier := "orders"
    dbClusterArn := some "arn:aws:rds:us-east-1:1:cluster:orders"
    allocatedStorage := 100
    dbClusterInstanceClass := "db.m5d.large"
    vpcSecurityGroupIds := ["sg-1"] }

-- another security group in place of the one the cluster has
def regrouped : Revision :=
  .dbCluster clusterReads cluster
    { Rds.mapped clusterReads cluster "us-east-1" with vpcSecurityGroups := [group "sg-2"] }
    (Rds.mapped clusterReads cluster "us-east-1") rfl

def dbInstance : Rds.AwsDBInstance :=
  { dbInstanceIdentifier := "orders"
    dbInstanceArn := some "arn:aws:rds:us-east-1:1:db:orders"
    allocatedStorage := 20
    availabilityZone := "us-east-1a"
    dbInstanceClass := "db.t3.micro"
    engine := some "postgres"
    vpcSecurityGroupIds := ["sg-1"]
    backupRetentionPeriod := some 1 }

def kept7Days : Revision :=
  .rds instanceReads dbInstance
    { Rds.mappedInstance instanceReads dbInstance "us-east-1" with backupRetentionPeriod := 7 }
    (Rds.mappedInstance instanceReads dbInstance "us-east-1") rfl rfl

def cacheGroup (subnets : List String) : MemoryDB.SubnetGroup :=
  { subnetGroupName := "cache"
    arn := some "arn:aws:memorydb:us-east-1:1:subnetgroup/cache"
    subnets := some subnets
    region := "us-east-1" }

def moved : Revision :=
  .subnetGroup ⟨[], []⟩ (fun _ => none) (fun _ => rfl)
    ⟨some "arn:aws:memorydb:us-east-1:1:subnetgroup/cache", some "cache", none, ["subnet-1"]⟩
    (cacheGroup ["subnet-2"]) (cacheGroup ["subnet-1"]) rfl

def mainTable (tags : Dict String String) : RouteTables.RouteTable :=
  { routeTableId := some "rtb-1"
    vpc := { vpcId := some "vpc-1", region := "us-east-1" }
    tags := some tags
    region := "us-east-1" }

def retagged : Revision :=
  .routeTable vpcReads ⟨fun _ => .ok (), "rtb-2"⟩ (fun _ => rfl) ⟨some "rtb-1", some "vpc-1", ∅⟩
    (mainTable (.ofList [("env", "test")])) (mainTable ∅) rfl

theorem edits_reverted :
    ¬ regrouped.Pushed ∧ ¬ kept7Days.Pushed ∧ ¬ moved.Pushed ∧ ¬ retagged.Pushed := by
  refine ⟨fun h => ?_, fun h => ?_, fun h => ?_, fun h => ?_⟩
  · have hmeets := ((Rds.reached_iff rfl).mp (h rfl)).2
    rcases hmeets.vpcSecurityGroups with hsame | ⟨hlength, -⟩
    · exact absurd ((hsame "sg-1").mp (by decide)) (by decide)
    · exact hlength rfl
  · have hmeets := (Rds.instanceReached_iff rfl rfl).mp (h rfl)
    rcases hmeets.backupRetentionPeriod with hmodified | hbackup
    · exact absurd hmodified (by decide)
    · exact absurd hbackup (by decide)
  · have hmeets := (MemoryDB.reached_iff rfl (fun _ => rfl)).mp (h rfl)
    rcases hmeets.subnets with hsame | hdescribed | ⟨hchanged, -⟩
    · exact absurd ((hsame "subnet-1").mp (by decide)) (by decide)
    · exact absurd hdescribed (by decide)
    · exact absurd hchanged (by decide)
  · have hmeets := (RouteTables.reached_iff rfl (fun _ => rfl)).mp (h rfl)
    exact absurd (hmeets "env") (by decide)

end Reverted

end Revision

end Iasql
