import Iasql.NetworkAcls
import Iasql.RdsCreate
import Iasql.UserData

namespace Iasql

open Program Prog Aws Tags

namespace Tags

variable {tags : Dict String String} {t : Option (Dict String String)}

-- no key and no value is empty
def NonemptyPairs (t : Option (Dict String String)) : Prop :=
  ∀ key value, t.bind (·.get? key) = some value → written key value = true

theorem filter_written (h : NonemptyPairs t) (key : String) :
    (t.bind (·.get? key)).filter (written key) = t.bind (·.get? key) := by
  cases hkey : t.bind (·.get? key) with
  | none => rfl
  | some value => rw [Option.filter, if_pos (h key value hkey)]

theorem readTags_getD (h : NonemptyPairs t) : SameTags (readTags (t.getD ∅)) t := by
  intro key
  rw [get?_readTags, get?_getD, filter_written h]

end Tags

namespace NetworkAcls

variable {vpc : String → String → Option SecurityGroups.Vpc} {service : Service} {s : State}
  {e c : NetworkAcl} {acl : AwsNetworkAcl} {networkAclId : String}

theorem mapped_tags {r : NetworkAcl} (h : networkAclMapper vpc acl e.region = some r) :
    r.tags = readTags acl.tags := by
  rw [networkAclMapper] at h
  split at h
  · cases h
  · cases h
    rfl

theorem mapped_of_truthy (h : Aws.truthy acl.networkAclId = true) :
    ∃ r, networkAclMapper vpc acl e.region = some r := by
  rw [networkAclMapper, h]
  exact ⟨_, rfl⟩

-- what is read of a network ACL that was created with the tags of e, or updated to them
def ReadsTags (vpc : String → String → Option SecurityGroups.Vpc) (e : NetworkAcl) (networkAclId : String)
    (s : State) : Prop :=
  ∃ acl r, s.acls.get? networkAclId = some acl ∧ networkAclMapper vpc acl e.region = some r ∧
    eqTags r.tags e.tags = true

def KeepsTags (vpc : String → String → Option SecurityGroups.Vpc) (service : Service) : Prop :=
  (∀ s e networkAclId, Creatable service s e networkAclId → networkAclId ≠ "" → NonemptyPairs e.tags →
    ReadsTags vpc e networkAclId (create vpc service e s).2) ∧
  ∀ s e c acl, Existing vpc service s e c acl → Storable service (userRules (e.entries.getD [])) →
    NonemptyPairs e.tags → ∃ t, update vpc service [e] s = (.returned (), t) ∧
      ReadsTags vpc e (e.networkAclId.getD "") t

theorem created_tags (h : Creatable service s e networkAclId) (hid : networkAclId ≠ "")
    (hwritten : NonemptyPairs e.tags) : ReadsTags vpc e networkAclId (create vpc service e s).2 := by
  have htruthy : Aws.truthy (granted service networkAclId e).networkAclId = true := by
    simpa [granted, Aws.truthy] using hid
  obtain ⟨r, hr⟩ := @mapped_of_truthy vpc e _ htruthy
  refine ⟨_, r, create_acls h, hr, ?_⟩
  rw [mapped_tags hr]
  exact eqTags_iff.mpr (readTags_getD hwritten)

theorem updated_tags (h : Existing vpc service s e c acl)
    (hstorable : Storable service (userRules (e.entries.getD []))) (hwritten : NonemptyPairs e.tags) :
    ∃ t, update vpc service [e] s = (.returned (), t) ∧ ReadsTags vpc e (e.networkAclId.getD "") t := by
  obtain ⟨t, acl', hrun, hacl, -, hid, htags, -⟩ := updateInPlace_storable h hstorable
  rw [← updateOne_apply h] at hrun
  have htruthy : Aws.truthy acl'.networkAclId = true := by
    have hread := h.read
    rw [networkAclMapper] at hread
    rw [hid]
    cases hacl : Aws.truthy acl.networkAclId with
    | true => rfl
    | false =>
      rw [hacl] at hread
      cases hread
  obtain ⟨r, hr⟩ := @mapped_of_truthy vpc e _ htruthy
  refine ⟨t, ?_, acl', r, hacl, hr, ?_⟩
  · rw [update, bind_of_returned (forOf_next hrun)]
    rfl
  · rw [mapped_tags hr, htags, pushedTags]
    split
    · next hsame =>
      rw [← mapped_tags h.read]
      exact hsame
    · exact eqTags_iff.mpr (readTags_getD hwritten)

end NetworkAcls

namespace Instances

variable {l : Reads} {service : Service} {volumes : Volumes} {power : Power} {attachments : Attachments}
  {s : World} {e c r : Instance} {raw : AwsInstance} {instanceId : String}

-- AWS launches the instance
structure Launchable (service : Service) (volumes : Volumes) (s : World) (e : Instance)
    (instanceId : String) : Prop where
  ami : e.ami ≠ ""
  securityGroups : (e.securityGroups.any fun sg => !Aws.truthy sg.groupId) = false
  subnet : (e.subnet.any fun subnet => !Aws.truthy subnet.subnetId) = false
  mappings : volumes.generateBlockDeviceMapping e = .ok ()
  answered : service.runInstances s.instances (instanceParams e) = .ok instanceId
  instanceId : instanceId ≠ ""

theorem createOne_instances (h : Launchable service volumes s e instanceId) :
    (createOne l service volumes e s).2.instances.get? instanceId =
      some (launched service (instanceParams e) instanceId) := by
  have hstored : (s.instances.set instanceId (launched service (instanceParams e) instanceId)).get?
      instanceId = some (launched service (instanceParams e) instanceId) := Dict.get?_set_self
  rw [createOne]
  simp only [h.ami, h.securityGroups, h.subnet, h.mappings, given, h.answered, h.instanceId,
    decide_false, Bool.or_self, Bool.false_eq_true, if_false, pure_bind_apply, reads_bind_apply,
    writes_bind_apply]
  cases volumes.synchronise e instanceId with
  | error err => exact hstored
  | ok _ =>
    simp only [pure_bind_apply, reads_bind_apply, hstored, Option.bind_some]
    cases instanceMapper l (launched service (instanceParams e) instanceId) e.region with
    | none => exact hstored
    | some newEntity => exact hstored

theorem create_instances (h : Launchable service volumes s e instanceId) :
    (create l service volumes e s).2.instances.get? instanceId =
      some (launched service (instanceParams e) instanceId) := by
  have h' : Launchable service volumes (memo e s) e instanceId :=
    ⟨h.ami, h.securityGroups, h.subnet, h.mappings, h.answered, h.instanceId⟩
  have hone := createOne_instances (l := l) h'
  simp only [create, writes_bind_apply]
  rcases hrun : createOne l service volumes e (memo e s) with ⟨o, t⟩
  rw [hrun] at hone
  cases o with
  | returned a =>
    rw [bind_of_returned (attempt_ok.mpr hrun)]
    cases a with
    | none => exact hone
    | some newEntity => exact hone
  | thrown err =>
    rw [bind_of_returned (attempt_error.mpr hrun)]
    exact hone
  | diverged =>
    rw [bind_of_diverged (attempt_diverged hrun)]
    exact hone

-- the record e of the database is the instance raw of AWS, which was read as c and is not replaced
structure Held (l : Reads) (s : World) (e c : Instance) (raw : AwsInstance) : Prop where
  memoised : s.memo.get? e.entityId = some c
  stored : s.instances.get? (e.instanceId.getD "") = some raw
  identified : raw.instanceId = e.instanceId
  read : instanceMapper l raw e.region = some c
  kept : instanceEqReplaceableFields e c = true

theorem mapped_of_read (h : instanceMapper l raw e.region = some r) :
    r = mapped l raw e.region ∧ Aws.truthy raw.instanceId = true := by
  rw [instanceMapper] at h
  split at h
  · next htruthy =>
    cases h
    exact ⟨rfl, ((Bool.and_eq_true _ _).mp htruthy).1⟩
  · cases h

theorem eqTags_mapped {tags : Option (Dict String String)} {region : String} (h : NonemptyPairs tags)
    (htags : raw.tags = tags.getD ∅) : eqTags (mapped l raw region).tags tags = true := by
  rw [eqTags_iff]
  intro key
  change (raw.tags.filter written).get? key = _
  rw [Dict.get?_filter, htags, get?_getD, filter_written h]

theorem written_ownedTags {tags : Option (Dict String String)} (h : NonemptyPairs tags) :
    NonemptyPairs (ownedTags tags) := by
  intro key value hvalue
  cases tags with
  | none => cases hvalue
  | some tags =>
    change (tags.set "owner" "iasql-engine").get? key = some value at hvalue
    by_cases howner : key = "owner"
    · subst howner
      rw [Dict.get?_set_self] at hvalue
      cases hvalue
      decide
    · rw [Dict.get?_set_ne howner] at hvalue
      exact h key value hvalue

-- all but its state
def Stays (instanceId : String) (raw : AwsInstance) (s : World) : Prop :=
  ∃ state, s.instances.get? instanceId = some { raw with state }

section Kept

theorem keeps_setState (insId : String) (answer : Except Thrown Unit) (state : InstanceStateName) :
    (Frame.ofInvariant (Stays instanceId raw)).Keeps (setState insId answer state) := by
  refine Frame.keeps_bind (keeps_given answer) fun _ => ?_
  rintro s ⟨current, hraw⟩
  simp only [change, reads_bind_apply]
  cases hget : s.instances.get? insId with
  | none => exact ⟨current, hraw⟩
  | some old =>
    by_cases heq : instanceId = insId
    · subst heq
      rw [hraw] at hget
      cases hget
      exact ⟨state, Dict.get?_set_self⟩
    · exact ⟨current, (Dict.get?_set_ne heq).trans hraw⟩

theorem keeps_updateState (insId : String) (cloudState : State) :
    (Frame.ofInvariant (Stays instanceId raw)).Keeps (updateState power insId cloudState e) := by
  unfold updateState
  split
  · exact keeps_setState insId _ _
  · exact keeps_setState insId _ _
  · exact Frame.keeps_bind (keeps_setState insId _ _) fun _ => Frame.keeps_writes fun _ h => h
  · exact Frame.keeps_fail _

end Kept

-- the tags of an instance behind an update that does not replace it
def pushedTags (c e : Instance) (raw : AwsInstance) : Dict String String :=
  if !eqTags e.tags c.tags && e.tags.isSome then e.tags.getD ∅ else raw.tags

theorem updateInPlace_tags (h : Held l s e c raw) :
    Stays (e.instanceId.getD "") { raw with tags := pushedTags c e raw } (updateInPlace power c e s).2 := by
  obtain ⟨-, htruthy⟩ := mapped_of_read h.read
  rw [h.identified] at htruthy
  have htagged : ∃ t, runIf (!eqTags e.tags c.tags && Aws.truthy e.instanceId && e.tags.isSome)
      (updateTags (e.instanceId.getD "") (e.tags.getD ∅)) s = (.returned (), t) ∧
        Stays (e.instanceId.getD "") { raw with tags := pushedTags c e raw } t := by
    rw [htruthy, Bool.and_true, pushedTags]
    cases !eqTags e.tags c.tags && e.tags.isSome with
    | false => exact ⟨s, rfl, raw.state, h.stored⟩
    | true =>
      simp only [runIf, if_true, updateTags, change, reads_bind_apply, h.stored]
      exact ⟨_, rfl, raw.state, Dict.get?_set_self⟩
  obtain ⟨t, hrun, ht⟩ := htagged
  rw [updateInPlace, bind_of_returned hrun]
  refine Frame.keeps_bind (F := Frame.ofInvariant (Stays (e.instanceId.getD "")
    { raw with tags := pushedTags c e raw })) ?_ (fun _ => Frame.keeps_pure none) t ht
  rw [runIf]
  exact Frame.keeps_ite (keeps_updateState _ _) (Frame.keeps_pure ())

theorem update_tags (h : Held l s e c raw) :
    Stays (e.instanceId.getD "") { raw with tags := pushedTags c e raw }
      (update l service volumes power attachments [e] s).2 := by
  have hone : updateOne l service volumes power attachments e s = updateInPlace power c e s := by
    simp only [updateOne, reads_bind_apply, h.memoised, h.kept]
    rfl
  have htags := @updateInPlace_tags l power s e c raw h
  rw [← hone] at htags
  rw [update_singleton]
  exact htags

-- what is read of the instance under an id
def ReadsTags (l : Reads) (region instanceId : String) (tags : Option (Dict String String))
    (s : World) : Prop :=
  ∃ raw r, s.instances.get? instanceId = some raw ∧ instanceMapper l raw region = some r ∧
    eqTags r.tags tags = true

-- a new instance has an owner besides, and an update to no tags at all keeps the old ones
def KeepsTags (l : Reads) (service : Service) (volumes : Volumes) (power : Power)
    (attachments : Attachments) : Prop :=
  (∀ s e instanceId, Launchable service volumes s e instanceId → e.instanceType ≠ "" →
    NonemptyPairs e.tags → ReadsTags l e.region instanceId (ownedTags e.tags) (create l service volumes e s).2) ∧
  ∀ s e c raw, Held l s e c raw → NonemptyPairs e.tags → ReadsTags l e.region (e.instanceId.getD "")
    (if e.tags.isSome then e.tags else c.tags) (update l service volumes power attachments [e] s).2

theorem created_tags (h : Launchable service volumes s e instanceId) (htype : e.instanceType ≠ "")
    (hwritten : NonemptyPairs e.tags) : ReadsTags l e.region instanceId (ownedTags e.tags)
      (create l service volumes e s).2 := by
  have hread : instanceMapper l (launched service (instanceParams e) instanceId) e.region =
      some (mapped l (launched service (instanceParams e) instanceId) e.region) := by
    rw [instanceMapper, if_pos]
    simp [launched, instanceParams, Aws.truthy, h.instanceId, htype]
  exact ⟨_, _, create_instances h, hread, eqTags_mapped (written_ownedTags hwritten) rfl⟩

theorem updated_tags (h : Held l s e c raw) (hwritten : NonemptyPairs e.tags) :
    ReadsTags l e.region (e.instanceId.getD "") (if e.tags.isSome then e.tags else c.tags)
      (update l service volumes power attachments [e] s).2 := by
  obtain ⟨state, hraw⟩ := @update_tags l service volumes power attachments s e c raw h
  have hread := h.read
  rw [instanceMapper] at hread
  split at hread
  · next htruthy =>
    cases hread
    refine ⟨_, _, hraw, by rw [instanceMapper, if_pos htruthy], ?_⟩
    have hkept : eqTags (mapped l raw e.region).tags (mapped l raw e.region).tags = true :=
      eqTags_iff.mpr fun _ => rfl
    cases htags : e.tags with
    | none =>
      have hsame : pushedTags (mapped l raw e.region) e raw = raw.tags := by
        rw [pushedTags, htags, Option.isSome_none, Bool.and_false]
        rfl
      rw [hsame]
      exact hkept
    | some tags =>
      rw [Option.isSome_some, if_pos rfl]
      cases heq : eqTags e.tags (mapped l raw e.region).tags with
      | true =>
        have hsame : pushedTags (mapped l raw e.region) e raw = raw.tags := by
          rw [pushedTags, heq]
          rfl
        rw [hsame, eqTags_iff]
        rw [eqTags_iff, htags] at heq
        exact fun key => (heq key).symm
      | false =>
        have hnew : pushedTags (mapped l raw e.region) e raw = e.tags.getD ∅ := by
          rw [pushedTags, heq, htags]
          rfl
        rw [hnew, ← htags]
        exact eqTags_mapped hwritten rfl
  · cases hread

end Instances

namespace Rds

variable {l : InstanceReads} {creation : Creation} {e c r : RDS} {aws : AwsDBInstance}
  {zone : AvailabilityZone}

def ReadsTags (l : InstanceReads) (e : RDS) (aws : AwsDBInstance) : Prop :=
  ∃ r, rdsMapper l aws e.region = some r ∧ eqTags r.tags e.tags = true

-- an instance outside of a cluster, whose tags keep every key that they had, is read with them
def KeepsTags (l : InstanceReads) (creation : Creation) : Prop :=
  (∀ e zone, Startable creation e zone → isSupported l (creation.started (createParams e zone.name)) = true →
    NonemptyPairs e.tags →
    ∃ aws, (createRDS l creation e ⟨none, e⟩).2.aws = some aws ∧ ReadsTags l e aws) ∧
  ∀ e c aws, rdsMapper l aws e.region = some c → e.dbCluster = none → Aws.truthy e.arn = true →
    e.arn = c.arn → (isModified e c = true → Edits.groupIds e.vpcSecurityGroups ≠ []) → Extends e.tags c.tags →
    ∃ t, updateRDS l c e ⟨aws, e⟩ = (.returned (), t) ∧ ReadsTags l e t.aws

theorem created_tags (h : Startable creation e zone)
    (hsupported : isSupported l (creation.started (createParams e zone.name)) = true)
    (hwritten : NonemptyPairs e.tags) :
    ∃ aws, (createRDS l creation e ⟨none, e⟩).2.aws = some aws ∧ ReadsTags l e aws := by
  refine ⟨_, createRDS_aws h, _, rdsMapper_eq_some.mpr ⟨hsupported, rfl⟩, ?_⟩
  rw [eqTags_iff]
  change SameTags (readTags (creation.started (createParams e zone.name)).tagList) e.tags
  rw [creation.tagList]
  exact readTags_getD hwritten

theorem updated_tags (hread : rdsMapper l aws e.region = some c) (hcluster : e.dbCluster = none)
    (htruthy : Aws.truthy e.arn = true) (harn : e.arn = c.arn)
    (hgroups : isModified e c = true → Edits.groupIds e.vpcSecurityGroups ≠ [])
    (hextends : Extends e.tags c.tags) :
    ∃ t, updateRDS l c e ⟨aws, e⟩ = (.returned (), t) ∧ ReadsTags l e t.aws := by
  obtain ⟨hsupported, -⟩ := rdsMapper_eq_some.mp hread
  refine ⟨_, updateRDS_pushes hread hcluster hgroups, _,
    rdsMapper_eq_some.mpr ⟨isSupported_pushed.trans hsupported, rfl⟩, ?_⟩
  rw [eqTags_iff]
  exact (pushedInstance_tags hread).mpr (.inr ⟨⟨htruthy, harn⟩, hextends⟩)

end Rds

namespace Instances

def noVolumes : Volumes := ⟨fun _ => .ok (), fun _ _ => .ok ()⟩

def noAttachments : Attachments := ⟨fun _ => .ok (), fun _ _ => .ok ()⟩

def powered : Power := ⟨fun _ => .ok (), fun _ _ => .ok (), fun _ => .ok ()⟩

def named : Dict String String := .ofList [("Name", "web")]

def tagged : Instance := { micro with tags := some named }

theorem written_named : NonemptyPairs (some named) := by
  intro key value h
  have hmem := Dict.mem_of_mem_ofList (Dict.get?_eq_some.mp h)
  obtain ⟨rfl, rfl⟩ := Prod.mk.inj (List.mem_singleton.mp hmem)
  decide

theorem launchable_tagged :
    Launchable launches noVolumes { instances := ∅ } tagged "i-1" :=
  ⟨by decide, rfl, rfl, rfl, rfl, by decide⟩

end Instances

namespace Rds

def groupOf : Edits.GroupReads where
  securityGroup := fun id => { groupId := some id }
  groupId := fun _ => rfl

def fewReads : InstanceReads :=
  { groupOf with
    availabilityZone := fun name => some ⟨name⟩
    parameterGroup := fun _ => none
    dbCluster := fun _ => none }

def started (p : CreateDBInstance) : AwsDBInstance where
  dbInstanceIdentifier := p.dbInstanceIdentifier
  dbInstanceArn := some ("arn:aws:rds:us-east-1:1:db:" ++ p.dbInstanceIdentifier)
  allocatedStorage := p.allocatedStorage
  availabilityZone := p.availabilityZone
  dbInstanceClass := p.dbInstanceClass
  engine := some p.engine
  tagList := p.tags

def starting : Creation where
  createDBInstance := fun p => .ok (some p.dbInstanceIdentifier)
  started
  tagList := fun _ => rfl
  readParents := fun _ => .ok ()

end Rds

end Iasql
