import Iasql.RdsUpdate

namespace Iasql.Rds

open Program Prog Aws Edits SecurityGroups Tags

structure CreateDBInstance where
  dbClusterIdentifier : Option String
  dbInstanceIdentifier : String
  dbInstanceClass : String
  engine : String
  engineVersion : Option String
  masterUsername : Option String
  masterUserPassword : Option String
  allocatedStorage : Int
  vpcSecurityGroupIds : List String
  availabilityZone : String
  backupRetentionPeriod : Int
  dbParameterGroupName : Option String
  tags : Dict String String

-- what AWS answers to a creation, and the instance it starts, with the tags as they are sent
structure Creation where
  createDBInstance : CreateDBInstance → Except Thrown (Option String)
  started : CreateDBInstance → AwsDBInstance
  tagList : ∀ p, (started p).tagList = p.tags
  -- the parameter group and the cluster of a new instance are read in, where they are not there
  readParents : AwsDBInstance → Except Thrown Unit

section Create

variable (l : InstanceReads) (creation : Creation)

def createParams (e : RDS) (zone : String) : CreateDBInstance where
  dbClusterIdentifier := e.dbCluster.map (·.dbClusterIdentifier)
  dbInstanceIdentifier := e.dbInstanceIdentifier
  dbInstanceClass := e.dbInstanceClass
  engine := e.engine
  engineVersion := e.engineVersion
  masterUsername := e.masterUsername
  masterUserPassword := e.masterUserPassword
  allocatedStorage := e.allocatedStorage
  vpcSecurityGroupIds := groupIds e.vpcSecurityGroups
  availabilityZone := zone
  backupRetentionPeriod := e.backupRetentionPeriod
  dbParameterGroupName := e.parameterGroup.map (·.name)
  tags := e.tags.getD ∅

def createRDS (e : RDS) : Prog (Edits.State (Option AwsDBInstance) RDS) Thrown (Option RDS) := do
  if e.vpcSecurityGroups.any fun sg => !Aws.truthy sg.groupId then
    fail (.error "Security group needs to exist")
  else
    match e.availabilityZone with
    | none => fail (.error "Cannot read properties of undefined (reading 'name')")
    | some zone =>
      match creation.createDBInstance (createParams e zone.name) with
      | .error err => fail err
      | .ok none => fail (.error "what should we do here?")
      | .ok (some _) => do
        let dbInstance := creation.started (createParams e zone.name)
        send fun _ => some dbInstance
        match creation.readParents dbInstance with
        | .error err => fail err
        | .ok () =>
          match rdsMapper l dbInstance e.region with
          | none => return none
          | some newEntity => do
            let newEntity := { newEntity with id := e.id, masterUserPassword := none }
            save newEntity
            return some newEntity

variable {l} {creation} {e : RDS}

-- AWS makes the instance
structure Startable (creation : Creation) (e : RDS) (zone : AvailabilityZone) : Prop where
  vpcSecurityGroups : (e.vpcSecurityGroups.any fun sg => !Aws.truthy sg.groupId) = false
  availabilityZone : e.availabilityZone = some zone
  answered : ∃ id, creation.createDBInstance (createParams e zone.name) = .ok (some id)

theorem createRDS_aws {zone : AvailabilityZone} (h : Startable creation e zone) :
    (createRDS l creation e ⟨none, e⟩).2.aws = some (creation.started (createParams e zone.name)) := by
  obtain ⟨id, hanswer⟩ := h.answered
  have hsend : (send fun _ => some (creation.started (createParams e zone.name))) ⟨none, e⟩ =
      ((.returned () : Outcome Thrown Unit),
        (⟨some (creation.started (createParams e zone.name)), e⟩ :
          Edits.State (Option AwsDBInstance) RDS)) := rfl
  rw [createRDS, h.vpcSecurityGroups, h.availabilityZone]
  simp only [Bool.false_eq_true, if_false, hanswer]
  rw [bind_of_returned hsend]
  cases creation.readParents (creation.started (createParams e zone.name)) with
  | error err => rfl
  | ok _ =>
    cases rdsMapper l (creation.started (createParams e zone.name)) e.region with
    | none => rfl
    | some newEntity => rfl

end Create

end Iasql.Rds
