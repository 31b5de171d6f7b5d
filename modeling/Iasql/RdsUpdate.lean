import Iasql.DBClusterUpdate

namespace Iasql.Rds

open Program Prog Aws Edits SecurityGroups Tags

structure AwsDBInstance where
  dbInstanceIdentifier : String
  dbInstanceArn : Option String
  allocatedStorage : Int
  availabilityZone : String
  dbInstanceClass : String
  endpointAddress : Option String := none
  endpointPort : Option Int := none
  endpointHostedZoneId : Option String := none
  engine : Option String
  engineVersion : Option String := none
  masterUsername : Option String := none
  -- never read back
  masterUserPassword : Option String := none
  vpcSecurityGroupIds : List String := []
  backupRetentionPeriod : Option Int := none
  -- the first of the parameter groups
  dbParameterGroupName : Option String := none
  dbClusterIdentifier : Option String := none
  tagList : Dict String String := ∅

structure InstanceReads extends GroupReads where
  availabilityZone : String → Option AvailabilityZone
  parameterGroup : String → Option ParameterGroup
  dbCluster : String → Option DBCluster

section Update

def RDS.equals (a b : RDS) : Bool :=
  a.engine == b.engine && a.engineVersion == b.engineVersion &&
    a.dbInstanceClass == b.dbInstanceClass &&
    a.availabilityZone.map (·.name) == b.availabilityZone.map (·.name) &&
    a.endpointAddr == b.endpointAddr && a.endpointHostedZoneId == b.endpointHostedZoneId &&
    a.endpointPort == b.endpointPort && !Aws.truthy a.masterUserPassword &&
    a.masterUsername == b.masterUsername &&
    a.vpcSecurityGroups.length == b.vpcSecurityGroups.length &&
    everyIn a.vpcSecurityGroups b.vpcSecurityGroups && a.allocatedStorage == b.allocatedStorage &&
    a.backupRetentionPeriod == b.backupRetentionPeriod &&
    a.parameterGroup.bind (·.arn) == b.parameterGroup.bind (·.arn) &&
    a.dbCluster.map (·.dbClusterIdentifier) == b.dbCluster.map (·.dbClusterIdentifier) &&
    eqTags a.tags b.tags && a.arn == b.arn

-- neither aurora nor under a parameter group that is not found
def isSupported (l : InstanceReads) (rds : AwsDBInstance) : Bool :=
  !includes "aurora" (rds.engine.getD "aurora") &&
    (rds.dbParameterGroupName.isNone || (rds.dbParameterGroupName.bind l.parameterGroup).isSome)

def mappedInstance (l : InstanceReads) (rds : AwsDBInstance) (region : String) : RDS where
  dbInstanceIdentifier := rds.dbInstanceIdentifier
  arn := rds.dbInstanceArn
  allocatedStorage := rds.allocatedStorage
  availabilityZone := l.availabilityZone rds.availabilityZone
  dbInstanceClass := rds.dbInstanceClass
  engine := rds.engine.getD "aurora"
  engineVersion := rds.engineVersion
  masterUsername := rds.masterUsername
  vpcSecurityGroups := l.groups rds.vpcSecurityGroupIds
  endpointAddr := rds.endpointAddress
  endpointPort := rds.endpointPort
  endpointHostedZoneId := rds.endpointHostedZoneId
  backupRetentionPeriod := rds.backupRetentionPeriod.getD 1
  parameterGroup := rds.dbParameterGroupName.bind l.parameterGroup
  dbCluster := (rds.dbClusterIdentifier.filter (· != "")).bind l.dbCluster
  tags := readTags rds.tagList
  region

def rdsMapper (l : InstanceReads) (rds : AwsDBInstance) (region : String) : Option RDS :=
  if isSupported l rds then some (mappedInstance l rds region) else none

structure ModifyDBInstance where
  dbInstanceClass : String
  engineVersion : Option String
  dbInstanceIdentifier : String
  allocatedStorage : Int
  vpcSecurityGroupIds : List String
  backupRetentionPeriod : Int
  masterUserPassword : Option String

def instanceParams (e : RDS) : ModifyDBInstance where
  dbInstanceClass := e.dbInstanceClass
  engineVersion := e.engineVersion
  dbInstanceIdentifier := e.dbInstanceIdentifier
  allocatedStorage := e.allocatedStorage
  vpcSecurityGroupIds := groupIds e.vpcSecurityGroups
  backupRetentionPeriod := e.backupRetentionPeriod
  masterUserPassword := e.masterUserPassword.filter (· != "")

def ModifyDBInstance.apply (p : ModifyDBInstance) (a : AwsDBInstance) : AwsDBInstance :=
  { a with
    dbInstanceClass := p.dbInstanceClass
    engineVersion := p.engineVersion.or a.engineVersion
    allocatedStorage := p.allocatedStorage
    vpcSecurityGroupIds := p.vpcSecurityGroupIds
    backupRetentionPeriod := some p.backupRetentionPeriod
    masterUserPassword := p.masterUserPassword.or a.masterUserPassword }

-- backupRetentionPeriod is sent with the others and not looked at
def isModified (e cloudRecord : RDS) : Bool :=
  !(e.dbInstanceClass == cloudRecord.dbInstanceClass && e.engineVersion == cloudRecord.engineVersion &&
    e.allocatedStorage == cloudRecord.allocatedStorage && !Aws.truthy e.masterUserPassword &&
    e.vpcSecurityGroups.length == cloudRecord.vpcSecurityGroups.length &&
    everyIn e.vpcSecurityGroups cloudRecord.vpcSecurityGroups)

def AwsDBInstance.updateTags (arn : String) (tags : Option (Dict String String)) (a : AwsDBInstance) :
    AwsDBInstance :=
  if a.dbInstanceArn = some arn then { a with tagList := retag a.tagList tags } else a

def unsupported : Thrown := .error "Cannot set properties of undefined (setting 'id')"

def savedInstance (e updatedRecord : RDS) : RDS :=
  { updatedRecord with
    id := e.id
    region := e.region
    masterUserPassword := none }

def updateDBInstance (e : RDS) : Prog (Edits.State AwsDBInstance RDS) Thrown Unit :=
  if (groupIds e.vpcSecurityGroups).isEmpty then fail waiting else send (instanceParams e).apply

-- the turn of the loop for one instance
def updateRDS (l : InstanceReads) (cloudRecord e : RDS) :
    Prog (Edits.State AwsDBInstance RDS) Thrown Unit := do
  if e.dbCluster.isSome then save (savedInstance e cloudRecord)
  else do
    let isTagged := Aws.truthy e.arn && !eqTags e.tags cloudRecord.tags
    runIf isTagged (send (AwsDBInstance.updateTags (e.arn.getD "") e.tags))
    runIf (isModified e cloudRecord) (updateDBInstance e)
    if isTagged || isModified e cloudRecord then do
      match ← reads fun s : Edits.State AwsDBInstance RDS => rdsMapper l s.aws e.region with
      | none => fail unsupported
      | some updatedRecord => save (savedInstance e updatedRecord)
    else save (savedInstance e cloudRecord)

end Update

section Reach

variable {l : InstanceReads} {aws : AwsDBInstance} {e c : RDS}

structure InstanceAgrees (e r : RDS) (aws : AwsDBInstance) : Prop where
  dbInstanceClass : r.dbInstanceClass = e.dbInstanceClass
  engineVersion : r.engineVersion = e.engineVersion
  allocatedStorage : r.allocatedStorage = e.allocatedStorage
  vpcSecurityGroups : SameGroups r.vpcSecurityGroups e.vpcSecurityGroups
  backupRetentionPeriod : r.backupRetentionPeriod = e.backupRetentionPeriod
  tags : SameTags r.tags e.tags
  masterUserPassword : Aws.truthy e.masterUserPassword = true → aws.masterUserPassword = e.masterUserPassword

-- what is edited without one of the columns that are looked at is not sent
structure InstanceMeets (e c : RDS) : Prop where
  waits : isModified e c = true → groupIds e.vpcSecurityGroups ≠ []
  engineVersion : e.engineVersion = c.engineVersion ∨ e.engineVersion.isSome = true
  vpcSecurityGroups : isModified e c = true ∨ SameGroups c.vpcSecurityGroups e.vpcSecurityGroups
  backupRetentionPeriod : isModified e c = true ∨ e.backupRetentionPeriod = c.backupRetentionPeriod
  tags : SameTags c.tags e.tags ∨ (Aws.truthy e.arn = true ∧ e.arn = c.arn) ∧ Extends e.tags c.tags

def InstanceReached (l : InstanceReads) (c e : RDS) (aws : AwsDBInstance) : Prop :=
  Reaches (updateRDS l c e) (fun a => rdsMapper l a e.region) (savedInstance e) (InstanceAgrees e) ⟨aws, e⟩

theorem rdsMapper_eq_some {a : AwsDBInstance} {region : String} :
    rdsMapper l a region = some c ↔ isSupported l a = true ∧ mappedInstance l a region = c := by
  rw [rdsMapper]
  split
  · next h => simp [h]
  · next h => simp [h]

-- what AWS has behind the update of an instance
def pushedInstance (e c : RDS) (aws : AwsDBInstance) : AwsDBInstance :=
  let tagged : AwsDBInstance :=
    { aws with tagList := pushTags (Aws.truthy e.arn && e.arn == aws.dbInstanceArn) e.tags aws.tagList }
  if isModified e c then (instanceParams e).apply tagged else tagged

theorem mappedInstance_updateTags :
    (if Aws.truthy e.arn && !eqTags e.tags (readTags aws.tagList) then
      aws.updateTags (e.arn.getD "") e.tags else aws) =
    { aws with tagList := pushTags (Aws.truthy e.arn && e.arn == aws.dbInstanceArn) e.tags aws.tagList } := by
  rw [pushTags]
  cases harn : Aws.truthy e.arn with
  | false => rfl
  | true =>
    obtain ⟨arn, hsome⟩ := truthy_some harn
    cases htags : eqTags e.tags (readTags aws.tagList) with
    | true => simp
    | false =>
      rw [AwsDBInstance.updateTags, hsome]
      by_cases h : aws.dbInstanceArn = some arn
      · simp [h]
      · simp [h, Ne.symm h]

theorem isSupported_pushed : isSupported l (pushedInstance e c aws) = isSupported l aws := by
  rw [pushedInstance]
  split
  · rfl
  · rfl

section Outside

variable (hread : rdsMapper l aws e.region = some c) (hcluster : e.dbCluster = none)

include hread in
theorem tagging_apply : runIf (Aws.truthy e.arn && !eqTags e.tags c.tags)
    (send (E := RDS) (AwsDBInstance.updateTags (e.arn.getD "") e.tags)) ⟨aws, e⟩ =
      (.returned (), ⟨{ aws with
        tagList := pushTags (Aws.truthy e.arn && e.arn == aws.dbInstanceArn) e.tags aws.tagList }, e⟩) := by
  obtain ⟨-, hc⟩ := rdsMapper_eq_some.mp hread
  have htagList : c.tags = readTags aws.tagList := hc ▸ rfl
  rw [← mappedInstance_updateTags, htagList, runIf]
  split
  · rfl
  · rfl

include hread hcluster in
theorem updateRDS_waits (hmodified : isModified e c = true) (hgroups : groupIds e.vpcSecurityGroups = []) :
    ∃ t, updateRDS l c e ⟨aws, e⟩ = (.thrown waiting, t) := by
  refine ⟨⟨{ aws with
    tagList := pushTags (Aws.truthy e.arn && e.arn == aws.dbInstanceArn) e.tags aws.tagList }, e⟩, ?_⟩
  rw [updateRDS, hcluster]
  change (runIf _ _ >>= _) _ = _
  rw [bind_of_returned (tagging_apply hread), hmodified, runIf, if_pos rfl, updateDBInstance, hgroups]
  rfl

include hread hcluster in
theorem updateRDS_pushes (hgroups : isModified e c = true → groupIds e.vpcSecurityGroups ≠ []) :
    updateRDS l c e ⟨aws, e⟩ = (.returned (), ⟨pushedInstance e c aws,
      savedInstance e (mappedInstance l (pushedInstance e c aws) e.region)⟩) := by
  obtain ⟨hsupported, hc⟩ := rdsMapper_eq_some.mp hread
  have htagList : c.tags = readTags aws.tagList := hc ▸ rfl
  have hmodify : runIf (isModified e c) (updateDBInstance e) ⟨{ aws with
      tagList := pushTags (Aws.truthy e.arn && e.arn == aws.dbInstanceArn) e.tags aws.tagList }, e⟩ =
        (.returned (), ⟨pushedInstance e c aws, e⟩) := by
    rw [pushedInstance]
    cases hmodified : isModified e c with
    | false => rfl
    | true =>
      have hempty : (groupIds e.vpcSecurityGroups).isEmpty = false := by simpa using hgroups hmodified
      rw [runIf, if_pos rfl, updateDBInstance, hempty]
      rfl
  rw [updateRDS, hcluster]
  change (runIf _ _ >>= _) _ = _
  rw [bind_of_returned (tagging_apply hread), bind_of_returned hmodify]
  cases hupdate : Aws.truthy e.arn && !eqTags e.tags c.tags || isModified e c with
  | true =>
    have hmapped : rdsMapper l (pushedInstance e c aws) e.region =
        some (mappedInstance l (pushedInstance e c aws) e.region) :=
      rdsMapper_eq_some.mpr ⟨isSupported_pushed.trans hsupported, rfl⟩
    rw [if_pos rfl, reads_bind_apply, hmapped]
    rfl
  | false =>
    obtain ⟨htagged, hmodified⟩ := Bool.or_eq_false_iff.mp hupdate
    have hsame : pushedInstance e c aws = aws := by
      rw [pushedInstance, hmodified, ← mappedInstance_updateTags, ← htagList, htagged]
      rfl
    rw [hsame, hc]
    rfl

include hread in
theorem pushedInstance_tags :
    SameTags (readTags (pushedInstance e c aws).tagList) e.tags ↔
      SameTags c.tags e.tags ∨ (Aws.truthy e.arn = true ∧ e.arn = c.arn) ∧ Extends e.tags c.tags := by
  obtain ⟨-, hc⟩ := rdsMapper_eq_some.mp hread
  have htagList : (pushedInstance e c aws).tagList =
      pushTags (Aws.truthy e.arn && e.arn == aws.dbInstanceArn) e.tags aws.tagList := by
    rw [pushedInstance]
    split
    · rfl
    · rfl
  rw [htagList, readTags_pushTags_iff, Bool.and_eq_true, beq_iff_eq, ← hc]
  rfl

include hread in
theorem instanceAgrees_of_modified (hmodified : isModified e c = true) :
    InstanceAgrees e (mappedInstance l (pushedInstance e c aws) e.region) (pushedInstance e c aws) ↔
      (e.engineVersion = c.engineVersion ∨ e.engineVersion.isSome = true) ∧
        SameTags (readTags (pushedInstance e c aws).tagList) e.tags := by
  obtain ⟨-, hc⟩ := rdsMapper_eq_some.mp hread
  have hversion : c.engineVersion = aws.engineVersion := hc ▸ rfl
  have hpushed : pushedInstance e c aws = (instanceParams e).apply { aws with
      tagList := pushTags (Aws.truthy e.arn && e.arn == aws.dbInstanceArn) e.tags aws.tagList } := by
    rw [pushedInstance, hmodified]
    rfl
  rw [hversion, ← or_eq_iff, hpushed]
  constructor
  · exact fun h => ⟨h.engineVersion, h.tags⟩
  · rintro ⟨hagrees, htags⟩
    refine ⟨rfl, hagrees, rfl, sameGroups_sent, rfl, htags, fun h => ?_⟩
    obtain ⟨password, hsome⟩ := truthy_some h
    have hne : password ≠ "" := by simpa [Aws.truthy, hsome] using h
    simp [instanceParams, ModifyDBInstance.apply, hsome, hne, Option.filter]

include hread in
theorem instanceAgrees_of_not_modified (hmodified : isModified e c = false) :
    InstanceAgrees e (mappedInstance l (pushedInstance e c aws) e.region) (pushedInstance e c aws) ↔
      SameGroups c.vpcSecurityGroups e.vpcSecurityGroups ∧
        e.backupRetentionPeriod = c.backupRetentionPeriod ∧
        SameTags (readTags (pushedInstance e c aws).tagList) e.tags := by
  obtain ⟨-, hc⟩ := rdsMapper_eq_some.mp hread
  have hpushed : pushedInstance e c aws = { aws with
      tagList := pushTags (Aws.truthy e.arn && e.arn == aws.dbInstanceArn) e.tags aws.tagList } := by
    rw [pushedInstance, hmodified]
    rfl
  simp only [isModified, Bool.not_eq_false', Bool.and_eq_true, beq_iff_eq, Bool.not_eq_true'] at hmodified
  obtain ⟨⟨⟨⟨⟨hclass, hversion⟩, hstorage⟩, hpassword⟩, -⟩, -⟩ := hmodified
  rw [hpushed]
  subst hc
  constructor
  · exact fun h => ⟨h.vpcSecurityGroups, h.backupRetentionPeriod.symm, h.tags⟩
  · rintro ⟨hgroups, hbackup, htags⟩
    refine ⟨hclass.symm, hversion.symm, hstorage.symm, hgroups, hbackup.symm, htags, fun h => ?_⟩
    rw [hpassword] at h
    cases h

include hread in
theorem instanceAgrees_pushed_iff (hgroups : isModified e c = true → groupIds e.vpcSecurityGroups ≠ []) :
    InstanceAgrees e (mappedInstance l (pushedInstance e c aws) e.region) (pushedInstance e c aws) ↔
      InstanceMeets e c := by
  cases hmodified : isModified e c with
  | true =>
    rw [instanceAgrees_of_modified hread hmodified, pushedInstance_tags hread]
    constructor
    · exact fun ⟨hversion, htags⟩ => ⟨hgroups, hversion, .inl hmodified, .inl hmodified, htags⟩
    · exact fun h => ⟨h.engineVersion, h.tags⟩
  | false =>
    rw [instanceAgrees_of_not_modified hread hmodified, pushedInstance_tags hread]
    constructor
    · rintro ⟨hsame, hbackup, htags⟩
      have hversion : e.engineVersion = c.engineVersion := by
        simp only [isModified, Bool.not_eq_false', Bool.and_eq_true, beq_iff_eq] at hmodified
        exact hmodified.1.1.1.1.2
      exact ⟨hgroups, .inl hversion, .inr hsame, .inr hbackup, htags⟩
    · intro h
      have hnot : ¬ isModified e c = true := by simp [hmodified]
      exact ⟨h.vpcSecurityGroups.resolve_left hnot, h.backupRetentionPeriod.resolve_left hnot, h.tags⟩

end Outside

theorem instanceReached_iff (hread : rdsMapper l aws e.region = some c) (hcluster : e.dbCluster = none) :
    InstanceReached l c e aws ↔ InstanceMeets e c := by
  by_cases hgroups : isModified e c = true → groupIds e.vpcSecurityGroups ≠ []
  · obtain ⟨hsupported, -⟩ := rdsMapper_eq_some.mp hread
    have hmapped : rdsMapper l (pushedInstance e c aws) e.region =
        some (mappedInstance l (pushedInstance e c aws) e.region) :=
      rdsMapper_eq_some.mpr ⟨isSupported_pushed.trans hsupported, rfl⟩
    rw [← instanceAgrees_pushed_iff hread hgroups]
    refine (reaches_iff (updateRDS_pushes hread hcluster hgroups) fun r hr => ?_).trans ?_
    · obtain rfl : _ = r := Option.some.inj (hmapped.symm.trans hr)
      rfl
    · constructor
      · rintro ⟨r, hr, hagrees⟩
        obtain rfl : _ = r := Option.some.inj (hmapped.symm.trans hr)
        exact hagrees
      · exact fun h => ⟨_, hmapped, h⟩
  · obtain ⟨hmodified, hnone⟩ := Classical.not_imp.mp hgroups
    obtain ⟨t, hrun⟩ := updateRDS_waits hread hcluster hmodified (not_ne_iff.mp hnone)
    exact iff_of_false (not_reaches hrun) fun h => hgroups h.waits

end Reach

end Iasql.Rds
