import Iasql.Calculus.Tables
import Iasql.TargetGroups

namespace Iasql.Restores

open Program Prog Aws Tables

section Entities

inductive ComputePlatform where
  | lambda | server
deriving DecidableEq

structure CodedeployApplication where
  id : Option Nat := none
  name : String
  applicationId : Option String := none
  computePlatform : ComputePlatform := .server
  region : String
deriving DecidableEq

structure EC2TagFilter where
  key : Option String
  type : String
  value : Option String
deriving DecidableEq

structure DeploymentStyle where
  deploymentOption : Option String
  deploymentType : Option String
deriving DecidableEq

structure IamRole where
  roleName : String
  arn : Option String := none
deriving DecidableEq

structure CodedeployDeploymentGroup where
  id : Option Nat := none
  name : String
  deploymentGroupId : Option String := none
  application : Option CodedeployApplication
  deploymentConfigName : String := "CodeDeployDefault.OneAtATime"
  deploymentStyle : Option DeploymentStyle := none
  ec2TagFilters : Option (List EC2TagFilter) := none
  role : Option IamRole := none
  region : String
deriving DecidableEq

def CodedeployDeploymentGroup.entityId (e : CodedeployDeploymentGroup) : String :=
  generateId [e.name, (e.application.map (·.name)).getD "", e.region]

structure Bucket where
  name : String
  region : String
deriving DecidableEq

structure BucketObject where
  id : Option Nat := none
  key : String
  bucketName : String
  bucket : Option Bucket := none
  region : String
  eTag : Option String := none
deriving DecidableEq

-- the region is no part of it
def BucketObject.entityId (e : BucketObject) : String :=
  if e.key != "" && e.bucketName != "" then generateId [e.key, e.bucketName]
  else (e.id.map toString).getD "undefined"

-- the unique columns of the tables
def applicationKey (a : CodedeployApplication) : Option (List String) := some [a.name, a.region]

def groupKey (g : CodedeployDeploymentGroup) : Option (List String) := some [g.name, g.region]

def targetGroupKey (e : Elb.TargetGroup) : Option (List String) := some [e.targetGroupName, e.region]

def objectKey (e : BucketObject) : Option (List String) := some [e.bucketName, e.key, e.region]

end Entities

section Database

-- nextId is what the sequences of the tables give next
structure Database where
  applications : List CodedeployApplication := []
  deploymentGroups : List CodedeployDeploymentGroup := []
  targetGroups : List Elb.TargetGroup := []
  bucketObjects : List BucketObject := []
  nextId : Nat

-- and ctx.memo.cloud
structure State where
  db : Database
  deploymentGroups : Dict String CodedeployDeploymentGroup := ∅
  targetGroups : Dict String Elb.TargetGroup := ∅
  bucketObjects : Dict String BucketObject := ∅

def duplicateKey : Thrown := .error "duplicate key value violates unique constraint"

def written {α : Type} (rows : Option α) (put : α → Database → Database) : Prog State Thrown Unit :=
  match rows with
  | none => fail duplicateKey
  | some rows => writes fun s => { s with db := put rows { s.db with nextId := s.db.nextId + 1 } }

def saveApplication (a : CodedeployApplication) : Prog State Thrown Unit := do
  let rows ← reads fun s : State => store (·.id) applicationKey (fun id a => { a with id := some id })
    s.db.nextId a s.db.applications
  written rows fun applications db => { db with applications }

def saveDeploymentGroup (g : CodedeployDeploymentGroup) : Prog State Thrown Unit := do
  let rows ← reads fun s : State => store (·.id) groupKey (fun id g => { g with id := some id })
    s.db.nextId g s.db.deploymentGroups
  written rows fun deploymentGroups db => { db with deploymentGroups }

def saveTargetGroup (e : Elb.TargetGroup) : Prog State Thrown Unit := do
  let rows ← reads fun s : State => store (·.id) targetGroupKey (fun id e => { e with id := some id })
    s.db.nextId e s.db.targetGroups
  written rows fun targetGroups db => { db with targetGroups }

def saveBucketObject (e : BucketObject) : Prog State Thrown Unit := do
  let rows ← reads fun s : State => store (·.id) objectKey (fun id e => { e with id := some id })
    s.db.nextId e s.db.bucketObjects
  written rows fun bucketObjects db => { db with bucketObjects }

-- a deployment group that is saved as an application: a row keeps the columns that are not set
def applicationOf (g : CodedeployDeploymentGroup) (applications : List CodedeployApplication) :
    CodedeployApplication :=
  match applications.find? fun a => g.id.isSome && a.id == g.id with
  | some row => { row with name := g.name, region := g.region }
  | none => { id := g.id, name := g.name, region := g.region }

end Database

section Updates

-- what AWS does with a deployment group, and what is read of it then
structure Codedeploy where
  updateDeploymentGroup : CodedeployDeploymentGroup → Except Thrown Unit
  read : String → Except Thrown (Option CodedeployDeploymentGroup)

def noRecord (property : String) : Thrown :=
  .error ("Cannot set properties of undefined (setting '" ++ property ++ "')")

def updateDeploymentGroup (cd : Codedeploy) (group : CodedeployDeploymentGroup) :
    Prog State Thrown (Option Unit) := do
  if group.application.isNone || group.name = "" then return none
  else
    match ← reads fun s : State => s.deploymentGroups.get? group.entityId with
    | none => fail (noRecord "id")
    | some cloudRecord => do
      let cloudRecord := { cloudRecord with id := group.id }
      if group.deploymentGroupId ≠ cloudRecord.deploymentGroupId then do
        -- restored through the mapper of the applications
        let application ← reads fun s : State => applicationOf cloudRecord s.db.applications
        saveApplication application
        return none
      else
        match cd.updateDeploymentGroup group with
        | .error err => fail err
        | .ok () =>
          match cd.read group.entityId with
          | .error err => fail err
          | .ok none => fail (.error "Error updating deployment group")
          | .ok (some updatedRecord) => do
            saveDeploymentGroup { updatedRecord with id := group.id }
            return none

-- what is not restored is modified or replaced
def updateTargetGroup (modify : Elb.TargetGroup → Elb.TargetGroup → Prog State Thrown (Option Unit))
    (e : Elb.TargetGroup) : Prog State Thrown (Option Unit) := do
  match ← reads fun s : State => s.targetGroups.get? (e.targetGroupArn.getD "") with
  | none => fail (.error "Cannot read properties of undefined (reading 'vpc')")
  | some cloudRecord =>
    if Elb.restores cloudRecord e then do
      saveTargetGroup cloudRecord
      return none
    else modify cloudRecord e

def updateBucketObject (e : BucketObject) : Prog State Thrown (Option Unit) := do
  match ← reads fun s : State => s.bucketObjects.get? e.entityId with
  | none => fail (.error "Cannot read properties of undefined")
  | some cloudRecord => do
    saveBucketObject cloudRecord
    return none

end Updates

-- an edited row, and the record of the cloud that its edit is undone with
inductive Restore where
  | deploymentGroup (group cloudRecord : CodedeployDeploymentGroup)
  | targetGroup (e cloudRecord : Elb.TargetGroup)
  | bucketObject (e cloudRecord : BucketObject)

namespace Restore

variable (cd : Codedeploy) (modify : Elb.TargetGroup → Elb.TargetGroup → Prog State Thrown (Option Unit))

-- cloud.update of the mapper for the row
def update : Restore → Prog State Thrown (Option Unit)
  | deploymentGroup group _ => forOf (updateDeploymentGroup cd) [group]
  | targetGroup e _ => forOf (updateTargetGroup modify) [e]
  | bucketObject e _ => forOf updateBucketObject [e]

-- the row is in its table, and its edit is one that is undone
def Undone (s : State) : Restore → Prop
  | deploymentGroup group c =>
    group ∈ s.db.deploymentGroups ∧ group.id ≠ none ∧ group.application ≠ none ∧ group.name ≠ "" ∧
      s.deploymentGroups.get? group.entityId = some c ∧ group.deploymentGroupId ≠ c.deploymentGroupId
  | targetGroup e c =>
    e ∈ s.db.targetGroups ∧ e.id ≠ none ∧ s.targetGroups.get? (e.targetGroupArn.getD "") = some c ∧
      Elb.restores c e = true
  | bucketObject e c =>
    e ∈ s.db.bucketObjects ∧ e.id ≠ none ∧ s.bucketObjects.get? e.entityId = some c

-- the row holds the values of the record, the other rows of its table and those of the others are kept
def Restored (s t : State) : Restore → Prop
  | deploymentGroup group c =>
    Rewritten (·.id) group.id { c with id := group.id } s.db.deploymentGroups t.db.deploymentGroups ∧
      t.db.applications = s.db.applications ∧ t.db.targetGroups = s.db.targetGroups ∧
      t.db.bucketObjects = s.db.bucketObjects
  | targetGroup e c =>
    Rewritten (·.id) e.id { c with id := e.id } s.db.targetGroups t.db.targetGroups ∧
      t.db.applications = s.db.applications ∧ t.db.deploymentGroups = s.db.deploymentGroups ∧
      t.db.bucketObjects = s.db.bucketObjects
  | bucketObject e c =>
    Rewritten (·.id) e.id { c with id := e.id } s.db.bucketObjects t.db.bucketObjects ∧
      t.db.applications = s.db.applications ∧ t.db.deploymentGroups = s.db.deploymentGroups ∧
      t.db.targetGroups = s.db.targetGroups

def Rewrites (s : State) (r : Restore) : Prop :=
  ∃ t, update cd modify r s = (.returned none, t) ∧ r.Restored s t

-- the record of the cloud has the primary key of the row, and no unique key of a third one
def KeepsRow (s : State) : Restore → Prop
  | deploymentGroup _ _ => False
  | targetGroup e c =>
    c.id = e.id ∧ ∀ r ∈ s.db.targetGroups, r.id ≠ e.id →
      ¬ (r.targetGroupName = c.targetGroupName ∧ r.region = c.region)
  | bucketObject e c =>
    c.id = e.id ∧ ∀ r ∈ s.db.bucketObjects, r.id ≠ e.id →
      ¬ (r.bucketName = c.bucketName ∧ r.key = c.key ∧ r.region = c.region)

-- the sequences give no id that is taken
structure Fresh (db : Database) : Prop where
  targetGroups : ∀ r ∈ db.targetGroups, r.id ≠ some db.nextId
  bucketObjects : ∀ r ∈ db.bucketObjects, r.id ≠ some db.nextId

variable {cd} {modify} {s t : State}

theorem written_iff {α : Type} {rows : Option α} {put : α → Database → Database} {P : State → Prop} :
    (∃ t, (written rows put >>= fun _ => pure (none : Option Unit)) s = (.returned none, t) ∧ P t) ↔
      ∃ a, rows = some a ∧ P { s with db := put a { s.db with nextId := s.db.nextId + 1 } } := by
  cases rows with
  | none =>
    refine iff_of_false ?_ (by simp)
    rintro ⟨t, hrun, -⟩
    cases hrun
  | some a =>
    constructor
    · rintro ⟨t, hrun, ht⟩
      cases hrun
      exact ⟨a, rfl, ht⟩
    · rintro ⟨b, hb, ht⟩
      cases hb
      exact ⟨_, rfl, ht⟩

theorem forOf_one_iff {E : Type} {body : E → Prog State Thrown (Option Unit)} {e : E} :
    forOf body [e] s = (.returned none, t) ↔ body e s = (.returned none, t) := by
  rw [forOf_cons]
  rcases hrun : body e s with ⟨o, u⟩
  cases o with
  | returned a =>
    rw [bind_of_returned hrun]
    cases a <;> exact Iff.rfl
  | thrown err => rw [bind_of_thrown hrun]
  | diverged => rw [bind_of_diverged hrun]

theorem rewrites_bucketObject_iff {e c : BucketObject} (h : (bucketObject e c).Undone s)
    (hfresh : Fresh s.db) :
    (bucketObject e c).Rewrites cd modify s ↔ (bucketObject e c).KeepsRow s := by
  obtain ⟨hrow, hid, hmemo⟩ := h
  have hrun : updateBucketObject e s = (written (store (·.id) objectKey (fun id e => { e with id := some id })
      s.db.nextId c s.db.bucketObjects) (fun bucketObjects db => { db with bucketObjects }) >>= fun _ =>
        pure (none : Option Unit)) s := by
    simp only [updateBucketObject, reads_bind_apply, hmemo]
    rfl
  have hstore : (∃ rows', store (·.id) objectKey (fun id e => { e with id := some id }) s.db.nextId c
        s.db.bucketObjects = some rows' ∧
          Rewritten (·.id) e.id { c with id := e.id } s.db.bucketObjects rows') ↔
      c.id = e.id ∧ ∀ r ∈ s.db.bucketObjects, r.id ≠ e.id → objectKey r ≠ objectKey c := by
    refine store_rewrites_iff hrow hid ?_ ?_ ?_ hfresh.bucketObjects ?_ ?_
    · exact Option.some_ne_none _
    · exact fun _ _ => rfl
    · exact fun _ _ => rfl
    · rfl
    · exact fun heq => by rw [← heq]
  simp only [Rewrites, update, forOf_one_iff, hrun, written_iff, Restored, and_true]
  refine hstore.trans (and_congr_right fun _ => forall₂_congr fun r _ => imp_congr_right fun _ => ?_)
  simp [objectKey]

theorem rewrites_targetGroup_iff {e c : Elb.TargetGroup} (h : (targetGroup e c).Undone s)
    (hfresh : Fresh s.db) :
    (targetGroup e c).Rewrites cd modify s ↔ (targetGroup e c).KeepsRow s := by
  obtain ⟨hrow, hid, hmemo, hrestores⟩ := h
  have hrun : updateTargetGroup modify e s = (written (store (·.id) targetGroupKey
      (fun id e => { e with id := some id }) s.db.nextId c s.db.targetGroups)
        (fun targetGroups db => { db with targetGroups }) >>= fun _ => pure (none : Option Unit)) s := by
    simp only [updateTargetGroup, reads_bind_apply, hmemo, hrestores]
    rfl
  have hstore : (∃ rows', store (·.id) targetGroupKey (fun id e => { e with id := some id }) s.db.nextId c
        s.db.targetGroups = some rows' ∧
          Rewritten (·.id) e.id { c with id := e.id } s.db.targetGroups rows') ↔
      c.id = e.id ∧ ∀ r ∈ s.db.targetGroups, r.id ≠ e.id → targetGroupKey r ≠ targetGroupKey c := by
    refine store_rewrites_iff hrow hid ?_ ?_ ?_ hfresh.targetGroups ?_ ?_
    · exact Option.some_ne_none _
    · exact fun _ _ => rfl
    · exact fun _ _ => rfl
    · rfl
    · exact fun heq => by rw [← heq]
  simp only [Rewrites, update, forOf_one_iff, hrun, written_iff, Restored, and_true]
  refine hstore.trans (and_congr_right fun _ => forall₂_congr fun r _ => imp_congr_right fun _ => ?_)
  simp [targetGroupKey]

-- the row of a deployment group is not written at all
theorem not_rewrites_deploymentGroup {group c : CodedeployDeploymentGroup}
    (h : (deploymentGroup group c).Undone s) : ¬ (deploymentGroup group c).Rewrites cd modify s := by
  obtain ⟨hrow, hid, happlication, hname, hmemo, hdiffers⟩ := h
  rintro ⟨t, hrun, ⟨hrewritten, -⟩⟩
  simp only [update, forOf_one_iff] at hrun
  have hunwritten : t.db.deploymentGroups = s.db.deploymentGroups := by
    have hskip : ¬ (group.application.isNone = true ∨ group.name = "") := by
      simp [Option.isNone_iff_eq_none, happlication, hname]
    simp only [updateDeploymentGroup, Bool.or_eq_true, decide_eq_true_eq, hskip, if_false,
      reads_bind_apply, hmemo, hdiffers, ne_eq, not_false_eq_true, if_true, saveApplication,
      bind_assoc_apply] at hrun
    cases hstore : store (·.id) applicationKey (fun id a => { a with id := some id }) s.db.nextId
        (applicationOf { c with id := group.id } s.db.applications) s.db.applications with
    | none =>
      rw [hstore] at hrun
      cases hrun
    | some applications =>
      rw [hstore] at hrun
      cases hrun
      rfl
  have hgroup := hrewritten.edited group (hunwritten ▸ hrow) rfl
  exact hdiffers (by rw [hgroup])

theorem rewrites_iff (cd : Codedeploy)
    (modify : Elb.TargetGroup → Elb.TargetGroup → Prog State Thrown (Option Unit)) (s : State)
    (r : Restore) (h : r.Undone s) (hfresh : Fresh s.db) : r.Rewrites cd modify s ↔ r.KeepsRow s := by
  cases r with
  | deploymentGroup group c => exact iff_of_false (not_rewrites_deploymentGroup h) id
  | targetGroup e c => exact rewrites_targetGroup_iff h hfresh
  | bucketObject e c => exact rewrites_bucketObject_iff h hfresh

section Rows

def idle : Codedeploy := ⟨fun _ => .ok (), fun _ => .ok none⟩

def untouched : Elb.TargetGroup → Elb.TargetGroup → Prog State Thrown (Option Unit) :=
  fun _ _ => pure none

def readme (eTag : String) : BucketObject :=
  { key := "readme"
    bucketName := "docs"
    bucket := some ⟨"docs", "us-east-1"⟩
    region := "us-east-1"
    eTag := some eTag }

def editedObject : BucketObject := { readme "edited" with id := some 1 }

def withObject (cloudRecord : BucketObject) : State where
  db := { bucketObjects := [editedObject], nextId := 2 }
  bucketObjects := (∅ : Dict String BucketObject).set editedObject.entityId cloudRecord

theorem fresh_withObject (cloudRecord : BucketObject) : Fresh (withObject cloudRecord).db :=
  ⟨List.forall_mem_nil _, by simp [withObject, editedObject]⟩

theorem keyed_object_restored :
    (bucketObject editedObject { readme "abc" with id := some 1 }).Rewrites idle untouched
      (withObject { readme "abc" with id := some 1 }) :=
  (rewrites_iff idle untouched (withObject { readme "abc" with id := some 1 })
    (bucketObject editedObject { readme "abc" with id := some 1 })
    ⟨List.mem_singleton.mpr rfl, by decide, Dict.get?_set_self⟩ (fresh_withObject _)).mpr
      ⟨rfl, by simp [withObject]⟩

-- as it is read of S3, the record has no primary key
theorem object_not_restored :
    ¬ (bucketObject editedObject (readme "abc")).Rewrites idle untouched (withObject (readme "abc")) := by
  have hundone : (bucketObject editedObject (readme "abc")).Undone (withObject (readme "abc")) :=
    ⟨List.mem_singleton.mpr rfl, by decide, Dict.get?_set_self⟩
  rw [rewrites_bucketObject_iff hundone (fresh_withObject _)]
  exact fun h => absurd h.1 (by decide)

end Rows

end Restore

end Iasql.Restores
