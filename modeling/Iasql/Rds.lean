import Iasql.SecurityGroups

namespace Iasql.Rds

open Program Prog Aws SecurityGroups

structure DBSubnetGroup where
  name : String
deriving DecidableEq

structure ParameterGroup where
  name : String
  arn : Option String := none
deriving DecidableEq

structure AvailabilityZone where
  name : String
deriving DecidableEq

structure DBCluster where
  id : Option Nat := none
  dbClusterIdentifier : String
  arn : Option String := none
  allocatedStorage : Int
  iops : Option Int := none
  backupRetentionPeriod : Option Int := none
  dbClusterInstanceClass : String
  subnetGroup : Option DBSubnetGroup := none
  deletionProtection : Option Bool := none
  engine : Option String := none
  engineVersion : Option String := none
  masterUserPassword : Option String := none
  masterUsername : Option String := none
  port : Option Int := none
  publiclyAccessible : Option Bool := none
  storageEncrypted : Option Bool := none
  vpcSecurityGroups : List SecurityGroup := []
  tags : Option (Dict String String) := none
  region : String
deriving DecidableEq

structure RDS where
  id : Option Nat := none
  dbInstanceIdentifier : String
  arn : Option String := none
  allocatedStorage : Int
  availabilityZone : Option AvailabilityZone := none
  dbInstanceClass : String
  engine : String
  engineVersion : Option String := none
  masterUserPassword : Option String := none
  masterUsername : Option String := none
  vpcSecurityGroups : List SecurityGroup := []
  endpointAddr : Option String := none
  endpointPort : Option Int := none
  endpointHostedZoneId : Option String := none
  backupRetentionPeriod : Int := 1
  parameterGroup : Option ParameterGroup := none
  dbCluster : Option DBCluster := none
  tags : Option (Dict String String) := none
  region : String
deriving DecidableEq

def cloudIdOf (fields : List String) (id : Option Nat) : String :=
  if fields.all (· != "") then generateId fields else (id.map toString).getD "undefined"

def DBCluster.entityId (e : DBCluster) : String := cloudIdOf [e.dbClusterIdentifier, e.region] e.id

def RDS.entityId (e : RDS) : String := cloudIdOf [e.dbInstanceIdentifier, e.region] e.id

section Deleting

structure DeleteDBInstance where
  region : String
  dbInstanceIdentifier : String
  skipFinalSnapshot : Bool
deriving DecidableEq

structure State where
  calls : List DeleteDBInstance := []
  -- ctx.memo.db.DBCluster
  clusterMemo : Dict String DBCluster := ∅
  clusters : List DBCluster := []
  -- ctx.memo.cloud.RDS and ctx.memo.db.RDS
  cloudMemo : Dict String RDS := ∅
  dbMemo : Dict String RDS := ∅
  instances : List RDS := []
  nextInstanceId : Nat := 1

-- the memo of the clusters answers before the table does
def State.cluster (s : State) (id : String) : Option DBCluster :=
  (s.clusterMemo.get? id).or
    (s.clusters.find? fun c => generateId [c.dbClusterIdentifier, c.region] == id)

def readCluster (id : String) : Prog State Thrown (Option DBCluster) := do
  let cluster ← reads fun s : State => s.cluster id
  if let some cluster := cluster then
    writes fun s => { s with clusterMemo := s.clusterMemo.set id cluster }
  return cluster

-- rds.db.create; an instance of the same identifier and region is refused
def createInstance (e : RDS) : Prog State Thrown Unit := do
  let saved ← reads fun s : State => { e with id := e.id.or (some s.nextInstanceId) }
  match ← reads fun s : State =>
      Tables.save RDS.id (fun r => some (r.dbInstanceIdentifier, r.region)) [saved] s.instances with
  | none => fail (.error "duplicate key value violates unique constraint")
  | some instances =>
    writes fun s =>
      { s with
        instances
        nextInstanceId := if e.id.isNone then s.nextInstanceId + 1 else s.nextInstanceId
        dbMemo := s.dbMemo.set saved.entityId saved }

def protectedCluster : Thrown := .error "Cannot delete a cluster with deletion protection"

abbrev Removal := DeleteDBInstance → Except Thrown Unit

-- the return of what the save gives back, which is nothing
def deleteOne (aws : Removal) (e : RDS) : Prog State Thrown (Option Unit) := do
  match e.dbCluster with
  | some dbCluster => do
    if dbCluster.deletionProtection = some true then fail protectedCluster
    -- the entry deleted from the memo here stands under a name that no mapper uses
    let cluster ← readCluster dbCluster.entityId
    if cluster.isNone then
      writes fun s =>
        { s with
          cloudMemo := s.cloudMemo.eraseAll [e.entityId]
          dbMemo := s.dbMemo.eraseAll [e.entityId] }
      return none
    createInstance e
    return some ()
  | none => do
    let call : DeleteDBInstance := ⟨e.region, e.dbInstanceIdentifier, true⟩
    writes fun s => { s with calls := s.calls ++ [call] }
    match aws call with
    | .error err => fail err
    | .ok () => return none

def delete (aws : Removal) (es : List RDS) : Prog State Thrown Unit := do
  let _ ← forOf (deleteOne aws) es

end Deleting

section Turns

variable {aws : Removal} {e : RDS} {s : State} {dbCluster : DBCluster}

def callsOf (e : RDS) : List DeleteDBInstance :=
  if e.dbCluster.isSome then [] else [⟨e.region, e.dbInstanceIdentifier, true⟩]

theorem callsOf_eq_nil : callsOf e = [] ↔ e.dbCluster.isSome = true := by
  cases h : e.dbCluster with
  | none => simp [callsOf, h]
  | some dbCluster => simp [callsOf, h]

-- whether the loop goes on behind an instance, given the clusters of the database
def goes (inDb : String → Bool) (e : RDS) : Bool :=
  e.dbCluster.all fun c => c.deletionProtection != some true && !inDb c.entityId

def State.inDb (s : State) (id : String) : Bool := (s.cluster id).isSome

theorem inDb_memoized {id : String} {cluster : DBCluster} (h : s.cluster id = some cluster) :
    State.inDb { s with clusterMemo := s.clusterMemo.set id cluster } = s.inDb := by
  funext id'
  by_cases heq : id' = id
  · subst heq
    have hset : (s.clusterMemo.set id' cluster).get? id' = some cluster := Dict.get?_set_self
    rw [State.inDb, State.inDb, h, State.cluster, hset]
    rfl
  · simp only [State.inDb, State.cluster, Dict.get?_set_ne heq]

theorem readCluster_apply (id : String) (s : State) :
    ∃ t, readCluster id s = (.returned (s.cluster id), t) ∧ t.calls = s.calls ∧ t.inDb = s.inDb := by
  cases h : s.cluster id with
  | none => exact ⟨s, by simp only [readCluster, reads_bind_apply, h]; rfl, rfl, rfl⟩
  | some cluster =>
    refine ⟨{ s with clusterMemo := s.clusterMemo.set id cluster }, ?_, rfl, inDb_memoized h⟩
    simp only [readCluster, reads_bind_apply, h]
    rfl

theorem createInstance_kept (e : RDS) (s : State) :
    (createInstance e s).2.calls = s.calls ∧ (createInstance e s).2.inDb = s.inDb := by
  simp only [createInstance, reads_bind_apply]
  cases Tables.save RDS.id (fun r => some (r.dbInstanceIdentifier, r.region))
      [{ e with id := e.id.or (some s.nextInstanceId) }] s.instances with
  | none => exact ⟨rfl, rfl⟩
  | some instances => exact ⟨rfl, rfl⟩

theorem deleteOne_called (hok : ∀ call, aws call = .ok ()) (h : e.dbCluster = none) :
    deleteOne aws e s = (.returned none, { s with calls := s.calls ++ callsOf e }) := by
  simp only [deleteOne, h, hok, callsOf]
  rfl

-- no call is made for a member of a cluster
theorem deleteOne_member (h : e.dbCluster = some dbCluster) :
    ∃ o t, deleteOne aws e s = (o, t) ∧ t.calls = s.calls ∧ t.inDb = s.inDb ∧
      (goes s.inDb e = true ↔ o = .returned none) := by
  by_cases hprotected : dbCluster.deletionProtection = some true
  · refine ⟨.thrown protectedCluster, s, ?_, rfl, rfl, ?_⟩
    · simp only [deleteOne, h, if_pos hprotected]
      rfl
    · simp [goes, h, hprotected]
  · obtain ⟨t, hread, hcalls, hdb⟩ := readCluster_apply dbCluster.entityId s
    cases hcluster : s.cluster dbCluster.entityId with
    | none =>
      rw [hcluster] at hread
      refine ⟨.returned none, { t with
        cloudMemo := t.cloudMemo.eraseAll [e.entityId]
        dbMemo := t.dbMemo.eraseAll [e.entityId] }, ?_, hcalls, hdb, ?_⟩
      · simp only [deleteOne, h, if_neg hprotected]
        rw [bind_of_returned hread]
        rfl
      · simp [goes, h, hprotected, State.inDb, hcluster]
    | some cluster =>
      rw [hcluster] at hread
      have hrun : deleteOne aws e s = (createInstance e >>= fun _ => pure (some ())) t := by
        simp only [deleteOne, h, if_neg hprotected]
        rw [bind_of_returned hread]
        rfl
      obtain ⟨hcalls', hdb'⟩ := createInstance_kept e t
      rcases hcreate : createInstance e t with ⟨o, u⟩
      rw [hcreate] at hcalls' hdb'
      rw [bind_apply, hcreate] at hrun
      have hstops : ¬ goes s.inDb e = true := by
        simp [goes, h, State.inDb, hcluster]
      cases o with
      | returned => exact ⟨_, u, hrun, hcalls'.trans hcalls, hdb'.trans hdb, iff_of_false hstops nofun⟩
      | thrown => exact ⟨_, u, hrun, hcalls'.trans hcalls, hdb'.trans hdb, iff_of_false hstops nofun⟩
      | diverged => exact ⟨_, u, hrun, hcalls'.trans hcalls, hdb'.trans hdb, iff_of_false hstops nofun⟩

theorem turns (hok : ∀ call, aws call = .ok ()) :
    Turns (fun _ => True) State.calls State.inDb (deleteOne aws) callsOf goes fun inDb _ => inDb where
  kept := fun _ _ _ => trivial
  viewed := by
    intro e s _
    cases h : e.dbCluster with
    | none => rw [deleteOne_called hok h]; rfl
    | some dbCluster =>
      obtain ⟨o, t, hrun, -, hdb, -⟩ := @deleteOne_member aws e s dbCluster h
      rw [hrun]
      exact hdb
  logged := by
    intro e s _
    cases h : e.dbCluster with
    | none => rw [deleteOne_called hok h]
    | some dbCluster =>
      obtain ⟨o, t, hrun, hcalls, -, -⟩ := @deleteOne_member aws e s dbCluster h
      have hnil : callsOf e = [] := by simp [callsOf, h]
      rw [hrun, hnil, List.append_nil]
      exact hcalls
  goes_iff := by
    intro e s _
    cases h : e.dbCluster with
    | none => simp [goes, h, deleteOne_called hok h]
    | some dbCluster =>
      obtain ⟨o, t, hrun, -, -, hgoes⟩ := @deleteOne_member aws e s dbCluster h
      rw [hrun]
      exact hgoes

end Turns

end Iasql.Rds
