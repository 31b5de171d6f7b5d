import Iasql.Edits
import Iasql.Rds

namespace Iasql.Rds

open Program Prog Aws Edits SecurityGroups Tags

structure AwsDBCluster where
  dbClusterIdentifier : String
  dbClusterArn : Option String
  allocatedStorage : Int
  backupRetentionPeriod : Option Int := none
  dbClusterInstanceClass : String
  deletionProtection : Option Bool := none
  engine : Option String := none
  engineVersion : Option String := none
  masterUsername : Option String := none
  -- never read back
  masterUserPassword : Option String := none
  dbSubnetGroup : Option String := none
  port : Option Int := none
  publiclyAccessible : Option Bool := none
  storageEncrypted : Option Bool := none
  iops : Option Int := none
  vpcSecurityGroupIds : List String := []
  tagList : Dict String String := ∅

structure ClusterReads extends GroupReads where
  subnetGroup : String → Option DBSubnetGroup

section Update

def DBCluster.equals (a b : DBCluster) : Bool :=
  a.allocatedStorage == b.allocatedStorage && a.iops == b.iops &&
    a.backupRetentionPeriod == b.backupRetentionPeriod &&
    a.dbClusterInstanceClass == b.dbClusterInstanceClass && a.arn == b.arn &&
    a.deletionProtection == b.deletionProtection && a.engine == b.engine &&
    a.engineVersion == b.engineVersion && !Aws.truthy a.masterUserPassword &&
    a.masterUsername == b.masterUsername && a.port == b.port &&
    a.publiclyAccessible == b.publiclyAccessible && a.storageEncrypted == b.storageEncrypted &&
    a.subnetGroup.map (·.name) == b.subnetGroup.map (·.name) &&
    a.vpcSecurityGroups.length == b.vpcSecurityGroups.length && eqTags a.tags b.tags &&
    a.arn == b.arn && everyIn a.vpcSecurityGroups b.vpcSecurityGroups

def mapped (l : ClusterReads) (cluster : AwsDBCluster) (region : String) : DBCluster where
  dbClusterIdentifier := cluster.dbClusterIdentifier
  arn := cluster.dbClusterArn
  allocatedStorage := cluster.allocatedStorage
  iops := cluster.iops.filter (· != 0)
  backupRetentionPeriod := cluster.backupRetentionPeriod
  dbClusterInstanceClass := cluster.dbClusterInstanceClass
  subnetGroup := (cluster.dbSubnetGroup.filter (· != "")).bind l.subnetGroup
  deletionProtection := some (cluster.deletionProtection.getD false)
  engine := cluster.engine
  engineVersion := cluster.engineVersion.filter (· != "")
  masterUsername := cluster.masterUsername.filter (· != "")
  port := cluster.port
  publiclyAccessible := some (cluster.publiclyAccessible.getD false)
  storageEncrypted := some (cluster.storageEncrypted.getD false)
  vpcSecurityGroups := l.groups cluster.vpcSecurityGroupIds
  tags := readTags cluster.tagList
  region

def dbClusterMapper (l : ClusterReads) (cluster : AwsDBCluster) (region : String) : Option DBCluster :=
  if cluster.dbClusterIdentifier = "" ∨ cluster.allocatedStorage = 0 ∨ cluster.dbClusterInstanceClass = ""
  then none
  else some (mapped l cluster region)

-- a field that is set to undefined is a key of the request and is not sent
structure ModifyDBCluster where
  dbClusterIdentifier : String
  allocatedStorage : Option Int
  backupRetentionPeriod : Option (Option Int)
  dbClusterInstanceClass : Option String
  deletionProtection : Option (Option Bool)
  engineVersion : Option (Option String)
  iops : Option (Option Int)
  vpcSecurityGroupIds : Option (List String)
  masterUserPassword : Option String

def clusterParams (e cloudRecord : DBCluster) : ModifyDBCluster where
  dbClusterIdentifier := e.dbClusterIdentifier
  allocatedStorage := changed e.allocatedStorage cloudRecord.allocatedStorage
  backupRetentionPeriod := changed e.backupRetentionPeriod cloudRecord.backupRetentionPeriod
  dbClusterInstanceClass := changed e.dbClusterInstanceClass cloudRecord.dbClusterInstanceClass
  -- the parameter itself is compared, which is not set yet
  deletionProtection :=
    if none = cloudRecord.deletionProtection then none else some e.deletionProtection
  engineVersion := changed e.engineVersion cloudRecord.engineVersion
  iops := changed e.iops cloudRecord.iops
  vpcSecurityGroupIds :=
    if e.vpcSecurityGroups.length ≠ cloudRecord.vpcSecurityGroups.length ∧
        everyIn e.vpcSecurityGroups cloudRecord.vpcSecurityGroups = true
    then some (groupIds e.vpcSecurityGroups)
    else none
  masterUserPassword := e.masterUserPassword.filter (· ≠ "")

def ModifyDBCluster.isUpdate (p : ModifyDBCluster) : Bool :=
  p.allocatedStorage.isSome || p.backupRetentionPeriod.isSome || p.dbClusterInstanceClass.isSome ||
    p.deletionProtection.isSome || p.engineVersion.isSome || p.iops.isSome ||
    p.vpcSecurityGroupIds.isSome || p.masterUserPassword.isSome

def ModifyDBCluster.apply (p : ModifyDBCluster) (a : AwsDBCluster) : AwsDBCluster :=
  { a with
    allocatedStorage := p.allocatedStorage.getD a.allocatedStorage
    backupRetentionPeriod := p.backupRetentionPeriod.join.or a.backupRetentionPeriod
    dbClusterInstanceClass := p.dbClusterInstanceClass.getD a.dbClusterInstanceClass
    deletionProtection := p.deletionProtection.join.or a.deletionProtection
    engineVersion := p.engineVersion.join.or a.engineVersion
    iops := p.iops.join.or a.iops
    vpcSecurityGroupIds := p.vpcSecurityGroupIds.getD a.vpcSecurityGroupIds
    masterUserPassword := p.masterUserPassword.or a.masterUserPassword }

def isRestored (e cloudRecord : DBCluster) : Bool :=
  !(e.engine == cloudRecord.engine) || !(e.masterUsername == cloudRecord.masterUsername) ||
    !(e.publiclyAccessible == cloudRecord.publiclyAccessible) ||
    !(e.storageEncrypted == cloudRecord.storageEncrypted) ||
    !(e.subnetGroup.map (·.name) == cloudRecord.subnetGroup.map (·.name)) ||
    !(e.port == cloudRecord.port) || !(e.arn == cloudRecord.arn)

-- the tags of the resource that the arn names
def AwsDBCluster.updateTags (arn : String) (tags : Option (Dict String String)) (a : AwsDBCluster) :
    AwsDBCluster :=
  if a.dbClusterArn = some arn then { a with tagList := retag a.tagList tags } else a

def waiting : Thrown := .error "Waiting for security groups"

-- the turn of the loop for one cluster
def updateDBCluster (l : ClusterReads) (cloudRecord e : DBCluster) :
    Prog (Edits.State AwsDBCluster DBCluster) Thrown Unit := do
  if (groupIds e.vpcSecurityGroups).isEmpty then fail waiting
  else if isRestored e cloudRecord then
    save { cloudRecord with id := e.id }
  else do
    runIf (Aws.truthy e.arn && !eqTags e.tags cloudRecord.tags)
      (send (AwsDBCluster.updateTags (e.arn.getD "") e.tags))
    let params := clusterParams e cloudRecord
    runIf params.isUpdate (send params.apply)
    let newObject ← reads Edits.State.aws
    match dbClusterMapper l newObject e.region with
    | none => pure ()
    | some newEntity =>
      save { newEntity with
        id := e.id
        masterUserPassword := none }

end Update

section Reach

variable {l : ClusterReads} {aws : AwsDBCluster} {e c : DBCluster}

-- the record that is read agrees with e in every column that a request can modify, and AWS has a
-- password that was given
structure Agrees (e r : DBCluster) (aws : AwsDBCluster) : Prop where
  allocatedStorage : r.allocatedStorage = e.allocatedStorage
  iops : r.iops = e.iops
  backupRetentionPeriod : r.backupRetentionPeriod = e.backupRetentionPeriod
  dbClusterInstanceClass : r.dbClusterInstanceClass = e.dbClusterInstanceClass
  deletionProtection : r.deletionProtection = e.deletionProtection
  engineVersion : r.engineVersion = e.engineVersion
  vpcSecurityGroups : SameGroups r.vpcSecurityGroups e.vpcSecurityGroups
  tags : SameTags r.tags e.tags
  masterUserPassword : Aws.truthy e.masterUserPassword = true → aws.masterUserPassword = e.masterUserPassword

-- no column that was edited is emptied, groups are only taken away and tags only added
structure Pushed (e c : DBCluster) : Prop where
  allocatedStorage : e.allocatedStorage ≠ 0
  iops : e.iops = c.iops ∨ ∃ n, n ≠ 0 ∧ e.iops = some n
  backupRetentionPeriod : e.backupRetentionPeriod = c.backupRetentionPeriod ∨ e.backupRetentionPeriod.isSome
  dbClusterInstanceClass : e.dbClusterInstanceClass ≠ ""
  deletionProtection : e.deletionProtection.isSome
  engineVersion : e.engineVersion = c.engineVersion ∨ Aws.truthy e.engineVersion = true
  vpcSecurityGroups : SameGroups c.vpcSecurityGroups e.vpcSecurityGroups ∨
    e.vpcSecurityGroups.length ≠ c.vpcSecurityGroups.length ∧
      everyIn e.vpcSecurityGroups c.vpcSecurityGroups = true
  tags : SameTags c.tags e.tags ∨ Aws.truthy e.arn = true ∧ Extends e.tags c.tags

def Meets (e c : DBCluster) (aws : AwsDBCluster) : Prop :=
  groupIds e.vpcSecurityGroups ≠ [] ∧
    if isRestored e c = true then Agrees e c aws else Pushed e c

def Reached (l : ClusterReads) (c e : DBCluster) (aws : AwsDBCluster) : Prop :=
  Reaches (updateDBCluster l c e) (fun a => dbClusterMapper l a e.region)
    (fun r => { r with
      id := e.id
      masterUserPassword := none })
    (Agrees e) ⟨aws, e⟩

theorem dbClusterMapper_eq_some {a : AwsDBCluster} {region : String} :
    dbClusterMapper l a region = some c ↔
      (a.dbClusterIdentifier ≠ "" ∧ a.allocatedStorage ≠ 0 ∧ a.dbClusterInstanceClass ≠ "") ∧
        mapped l a region = c := by
  rw [dbClusterMapper]
  split
  · next h =>
    refine iff_of_false nofun ?_
    rintro ⟨⟨hid, hstorage, hclass⟩, -⟩
    exact h.elim hid fun h => h.elim hstorage hclass
  · next h =>
    rw [Option.some.injEq]
    exact (and_iff_right ⟨fun hid => h (.inl hid), fun hstorage => h (.inr (.inl hstorage)),
      fun hclass => h (.inr (.inr hclass))⟩).symm

-- what AWS has behind the update of a cluster that is not restored
def pushed (e c : DBCluster) (aws : AwsDBCluster) : AwsDBCluster :=
  (clusterParams e c).apply { aws with tagList := pushTags (Aws.truthy e.arn) e.tags aws.tagList }

section Columns

variable {region : String}

theorem pushed_iops : (pushed e (mapped l aws region) aws).iops.filter (· != 0) = e.iops ↔
    e.iops = (mapped l aws region).iops ∨ ∃ n, n ≠ 0 ∧ e.iops = some n := by
  refine filter_or_changed_iff.trans ?_
  simp [mapped]

theorem pushed_engineVersion :
    (pushed e (mapped l aws region) aws).engineVersion.filter (· != "") = e.engineVersion ↔
      e.engineVersion = (mapped l aws region).engineVersion ∨ Aws.truthy e.engineVersion = true := by
  refine filter_or_changed_iff.trans (or_congr Iff.rfl ?_)
  cases e.engineVersion <;> simp [Aws.truthy]

-- compared with nothing, the column is sent whatever it is
theorem pushed_deletionProtection :
    some ((pushed e (mapped l aws region) aws).deletionProtection.getD false) = e.deletionProtection ↔
      e.deletionProtection.isSome = true := by
  change some ((e.deletionProtection.or aws.deletionProtection).getD false) = e.deletionProtection ↔ _
  cases e.deletionProtection with
  | none => simp
  | some b => simp

theorem pushed_vpcSecurityGroups :
    SameGroups (l.groups (pushed e c aws).vpcSecurityGroupIds) e.vpcSecurityGroups ↔
      SameGroups (l.groups aws.vpcSecurityGroupIds) e.vpcSecurityGroups ∨
        e.vpcSecurityGroups.length ≠ c.vpcSecurityGroups.length ∧
          everyIn e.vpcSecurityGroups c.vpcSecurityGroups = true := by
  by_cases hsent : e.vpcSecurityGroups.length ≠ c.vpcSecurityGroups.length ∧
      everyIn e.vpcSecurityGroups c.vpcSecurityGroups = true
  · have hids : (pushed e c aws).vpcSecurityGroupIds = groupIds e.vpcSecurityGroups := by
      simp only [pushed, clusterParams, ModifyDBCluster.apply, if_pos hsent, Option.getD_some]
    rw [hids]
    exact iff_of_true sameGroups_sent (.inr hsent)
  · have hids : (pushed e c aws).vpcSecurityGroupIds = aws.vpcSecurityGroupIds := by
      simp only [pushed, clusterParams, ModifyDBCluster.apply, if_neg hsent, Option.getD_none]
    rw [hids, or_iff_left hsent]

theorem pushed_masterUserPassword (h : Aws.truthy e.masterUserPassword = true) :
    (pushed e c aws).masterUserPassword = e.masterUserPassword := by
  obtain ⟨password, hsome⟩ := truthy_some h
  have hne : password ≠ "" := by simpa [Aws.truthy, hsome] using h
  simp [pushed, clusterParams, ModifyDBCluster.apply, hsome, hne, Option.filter]

end Columns

section NotRestored

variable (hread : dbClusterMapper l aws e.region = some c) (hrestored : isRestored e c = false)

include hread hrestored in
theorem arn_eq : e.arn = aws.dbClusterArn := by
  obtain ⟨-, rfl⟩ := dbClusterMapper_eq_some.mp hread
  have h : e.arn = (mapped l aws e.region).arn := by simpa using (Bool.or_eq_false_iff.mp hrestored).2
  exact h

include hread in
theorem isUpdate_clusterParams : (clusterParams e c).isUpdate = true := by
  obtain ⟨-, rfl⟩ := dbClusterMapper_eq_some.mp hread
  simp [ModifyDBCluster.isUpdate, clusterParams, mapped]

include hread hrestored in
theorem updateTags_eq : (if Aws.truthy e.arn && !eqTags e.tags c.tags then
      aws.updateTags (e.arn.getD "") e.tags else aws) =
    { aws with tagList := pushTags (Aws.truthy e.arn) e.tags aws.tagList } := by
  have harn := arn_eq hread hrestored
  obtain ⟨-, rfl⟩ := dbClusterMapper_eq_some.mp hread
  rw [pushTags]
  change (if Aws.truthy e.arn && !eqTags e.tags (readTags aws.tagList) then _ else _) = _
  split
  · next h =>
    obtain ⟨arn, hsome⟩ := truthy_some ((Bool.and_eq_true _ _).mp h).1
    have hnamed : aws.dbClusterArn = some (e.arn.getD "") := by rw [← harn, hsome, Option.getD_some]
    rw [AwsDBCluster.updateTags, if_pos hnamed]
  · rfl

include hread hrestored in
theorem updateDBCluster_pushes (hgroups : groupIds e.vpcSecurityGroups ≠ []) :
    updateDBCluster l c e ⟨aws, e⟩ = (.returned (), ⟨pushed e c aws,
      ((dbClusterMapper l (pushed e c aws) e.region).map fun r => { r with
        id := e.id
        masterUserPassword := none }).getD e⟩) := by
  have hempty : (groupIds e.vpcSecurityGroups).isEmpty = false := by simpa using hgroups
  have htags : runIf (Aws.truthy e.arn && !eqTags e.tags c.tags)
      (send (E := DBCluster) (AwsDBCluster.updateTags (e.arn.getD "") e.tags)) ⟨aws, e⟩ =
        (.returned (), ⟨{ aws with tagList := pushTags (Aws.truthy e.arn) e.tags aws.tagList }, e⟩) := by
    rw [← updateTags_eq hread hrestored, runIf]
    split
    · rfl
    · rfl
  rw [updateDBCluster, hempty, hrestored, if_neg Bool.false_ne_true, if_neg Bool.false_ne_true,
    bind_of_returned htags, isUpdate_clusterParams hread]
  change (match dbClusterMapper l (pushed e c aws) e.region with
    | none => pure ()
    | some newEntity => save { newEntity with
        id := e.id
        masterUserPassword := none }) ⟨pushed e c aws, e⟩ = _
  cases dbClusterMapper l (pushed e c aws) e.region with
  | none => rfl
  | some r => rfl

include hread in
theorem agrees_pushed_iff : (∃ r, dbClusterMapper l (pushed e c aws) e.region = some r ∧
    Agrees e r (pushed e c aws)) ↔ Pushed e c := by
  obtain ⟨⟨hid, -, -⟩, rfl⟩ := dbClusterMapper_eq_some.mp hread
  have hstorage : (pushed e (mapped l aws e.region) aws).allocatedStorage = e.allocatedStorage :=
    getD_changed e.allocatedStorage aws.allocatedStorage
  have hclass : (pushed e (mapped l aws e.region) aws).dbClusterInstanceClass =
      e.dbClusterInstanceClass := getD_changed e.dbClusterInstanceClass aws.dbClusterInstanceClass
  have htags : SameTags (readTags (pushed e (mapped l aws e.region) aws).tagList) e.tags ↔
      SameTags (readTags aws.tagList) e.tags ∨
        Aws.truthy e.arn = true ∧ Extends e.tags (readTags aws.tagList) :=
    readTags_pushTags_iff (Aws.truthy e.arn)
  constructor
  · rintro ⟨r, hr, hagrees⟩
    obtain ⟨⟨-, hstorage', hclass'⟩, rfl⟩ := dbClusterMapper_eq_some.mp hr
    exact
      { allocatedStorage := hstorage ▸ hstorage'
        iops := pushed_iops.mp hagrees.iops
        backupRetentionPeriod := or_changed_iff.mp hagrees.backupRetentionPeriod
        dbClusterInstanceClass := hclass ▸ hclass'
        deletionProtection := pushed_deletionProtection.mp hagrees.deletionProtection
        engineVersion := pushed_engineVersion.mp hagrees.engineVersion
        vpcSecurityGroups := pushed_vpcSecurityGroups.mp hagrees.vpcSecurityGroups
        tags := htags.mp hagrees.tags }
  · intro h
    refine ⟨_, dbClusterMapper_eq_some.mpr ⟨⟨hid, ?_, ?_⟩, rfl⟩, ?_⟩
    · rw [hstorage]
      exact h.allocatedStorage
    · rw [hclass]
      exact h.dbClusterInstanceClass
    · exact
        { allocatedStorage := hstorage
          iops := pushed_iops.mpr h.iops
          backupRetentionPeriod := or_changed_iff.mpr h.backupRetentionPeriod
          dbClusterInstanceClass := hclass
          deletionProtection := pushed_deletionProtection.mpr h.deletionProtection
          engineVersion := pushed_engineVersion.mpr h.engineVersion
          vpcSecurityGroups := pushed_vpcSecurityGroups.mpr h.vpcSecurityGroups
          tags := htags.mpr h.tags
          masterUserPassword := pushed_masterUserPassword }

end NotRestored

theorem reached_iff (hread : dbClusterMapper l aws e.region = some c) :
    Reached l c e aws ↔ Meets e c aws := by
  by_cases hgroups : groupIds e.vpcSecurityGroups = []
  · have hrun : updateDBCluster l c e ⟨aws, e⟩ = (.thrown waiting, ⟨aws, e⟩) := by
      rw [updateDBCluster, hgroups]
      rfl
    exact iff_of_false (not_reaches hrun) fun h => h.1 hgroups
  · rw [Meets, and_iff_right hgroups]
    cases hrestored : isRestored e c with
    | true =>
      have hempty : (groupIds e.vpcSecurityGroups).isEmpty = false := by simpa using hgroups
      have hrun : updateDBCluster l c e ⟨aws, e⟩ = (.returned (), ⟨aws, { c with id := e.id }⟩) := by
        rw [updateDBCluster, hempty, hrestored]
        rfl
      refine (reaches_iff hrun fun r hr => ?_).trans ?_
      · obtain rfl : c = r := Option.some.inj (hread.symm.trans hr)
        obtain ⟨-, rfl⟩ := dbClusterMapper_eq_some.mp hread
        rfl
      · rw [if_pos rfl]
        constructor
        · rintro ⟨r, hr, hagrees⟩
          obtain rfl : c = r := Option.some.inj (hread.symm.trans hr)
          exact hagrees
        · exact fun h => ⟨c, hread, h⟩
    | false =>
      rw [if_neg Bool.false_ne_true, ← agrees_pushed_iff hread]
      exact reaches_iff (updateDBCluster_pushes hread hrestored hgroups) fun r hr => by
        rw [hr]
        rfl

end Reach

end Iasql.Rds
