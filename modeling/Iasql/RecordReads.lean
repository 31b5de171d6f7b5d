import Iasql.RecordSets
import Iasql.Restores
import Iasql.SingleReads

namespace Iasql

open Aws EntityIds SingleReads

namespace Route53

-- the record sets of each hosted zone, which reading them can refuse
structure Content where
  ctx : Context
  hostedZones : List HostedZone
  records : String → Except Thrown (List AwsResourceRecordSet)

-- what a read by id gives is not mapped
inductive Found where
  | raw (rrs : AwsResourceRecordSet) (hostedZoneId : String)
  | record (e : ResourceRecordSet)
deriving DecidableEq

def Found.entityId : Found → Except Thrown String
  | .raw _ _ => .error (.error "Cannot read properties of undefined (reading 'hostedZoneId')")
  | .record e => .ok e.entityId

variable (c : Content)

-- a zone whose records cannot be read is left out
def Content.rawRecords : List (AwsResourceRecordSet × String) :=
  c.hostedZones.flatMap fun hz =>
    match c.records (hz.hostedZoneId.getD "") with
    | .error _ => []
    | .ok hzRecords => hzRecords.map fun r => (r, hz.hostedZoneId.getD "")

def Named (id : String) (r : AwsResourceRecordSet) : Prop :=
  (split id)[1]? = some r.name ∧ (split id)[2]? = some r.type.text

instance (id : String) (r : AwsResourceRecordSet) : Decidable (Named id r) :=
  inferInstanceAs (Decidable (_ ∧ _))

def mapRecords : List (AwsResourceRecordSet × String) → Except Thrown (List ResourceRecordSet)
  | [] => .ok []
  | (rrs, hostedZoneId) :: rest =>
    match resourceRecordSetMapper c.ctx rrs hostedZoneId with
    | .error message => .error (.error message)
    | .ok record => (mapRecords rest).map fun out => record.toList ++ out

def readFn : ReadFn Found where
  entityName := "ResourceRecordSet"
  entityId := Found.entityId
  one id := .ok ((c.rawRecords.find? fun r => Named id r.1).map fun r => .raw r.1 r.2)
  all := (mapRecords c c.rawRecords).map fun out => out.map .record

-- a record set that is taken over under an id
def TakenOver (id : String) (r : AwsResourceRecordSet) (hostedZoneId : String) : Prop :=
  Importable c.ctx hostedZoneId r ∧ ∃ parent, c.ctx.hostedZone hostedZoneId = some parent ∧
    generateId [parent.hostedZoneId.getD "undefined", r.name, r.type.text] = id

variable {c} {id : String} {all : List Found} {rs : List (AwsResourceRecordSet × String)}
  {out : List ResourceRecordSet}

theorem mem_mapRecords (h : mapRecords c rs = .ok out) (e : ResourceRecordSet) :
    e ∈ out ↔ ∃ r ∈ rs, Imports c.ctx r.1 r.2 e := by
  induction rs generalizing out with
  | nil =>
    cases h
    simp
  | cons r rs ih =>
    rw [mapRecords] at h
    cases hmapped : resourceRecordSetMapper c.ctx r.1 r.2 with
    | error message =>
      rw [hmapped] at h
      cases h
    | ok record =>
      rw [hmapped] at h
      cases hrest : mapRecords c rs with
      | error err =>
        simp only [hrest] at h
        cases h
      | ok rest =>
        simp only [hrest, Except.map, Except.ok.injEq] at h
        rw [← h, List.mem_append, ih hrest]
        simp [Imports, hmapped]

theorem takenOver_iff {r : AwsResourceRecordSet × String} :
    TakenOver c id r.1 r.2 ↔ ∃ e, Imports c.ctx r.1 r.2 e ∧ e.entityId = id := by
  rw [TakenOver, ← imports_iff]
  constructor
  · rintro ⟨⟨e, he⟩, parent, hparent, hid⟩
    have himported := imported he
    obtain rfl := Option.some.inj (hparent.symm.trans himported.zone)
    refine ⟨e, he, ?_⟩
    rw [ResourceRecordSet.entityId, himported.name, himported.recordType, hid]
  · rintro ⟨e, he, hid⟩
    have himported := imported he
    refine ⟨⟨e, he⟩, e.parentHostedZone, himported.zone, ?_⟩
    rwa [ResourceRecordSet.entityId, himported.name, himported.recordType] at hid

-- a read by id has no entity to give
theorem reads_agree_iff (hall : (readFn c).all = .ok all) : (readFn c).Agrees id all ↔
    id ≠ "" ∧ ∀ r ∈ c.rawRecords, ¬ Named id r.1 ∧ ¬ TakenOver c id r.1 r.2 := by
  obtain ⟨out, hout, rfl⟩ : ∃ out, mapRecords c c.rawRecords = .ok out ∧ all = out.map .record := by
    cases hmapped : mapRecords c c.rawRecords with
    | error err =>
      simp only [readFn, hmapped] at hall
      cases hall
    | ok out =>
      simp only [readFn, hmapped] at hall
      cases hall
      exact ⟨out, rfl, rfl⟩
  have hnone : (readFn c).one id = .ok none ↔ ∀ r ∈ c.rawRecords, ¬ Named id r.1 := by
    simp [readFn]
  have hothers : (∀ e ∈ out.map Found.record, (readFn c).entityId e ≠ .ok id) ↔
      ∀ r ∈ c.rawRecords, ¬ TakenOver c id r.1 r.2 := by
    constructor
    · intro h r hr htaken
      obtain ⟨e, he, hid⟩ := takenOver_iff.mp htaken
      have hmem : e ∈ out := (mem_mapRecords hout e).mpr ⟨r, hr, he⟩
      exact h (.record e) (List.mem_map_of_mem hmem) (congrArg Except.ok hid)
    · intro h f hf hid
      obtain ⟨e, he, rfl⟩ := List.mem_map.mp hf
      obtain ⟨r, hr, himports⟩ := (mem_mapRecords hout e).mp he
      exact h r hr (takenOver_iff.mpr ⟨e, himports, Except.ok.inj hid⟩)
  rw [ReadFn.agrees_iff, hnone, hothers]
  refine and_congr_right fun _ => ?_
  constructor
  · rintro (⟨e, he, -, hone⟩ | ⟨htaken, hnamed⟩)
    · obtain ⟨record, -, rfl⟩ := List.mem_map.mp he
      obtain ⟨r, -, hr⟩ := Option.map_eq_some_iff.mp (Except.ok.inj hone)
      cases hr
    · exact fun r hr => ⟨hnamed r hr, htaken r hr⟩
  · exact fun h => .inr ⟨fun r hr => (h r hr).2, fun r hr => (h r hr).1⟩

end Route53

namespace BucketObjects

open Restores

structure AwsObject where
  key : Option String
  eTag : Option String := none
deriving DecidableEq

-- the buckets of the enabled regions, the bucket that the database, or else AWS, has under an id,
-- and the objects of a bucket under a prefix
structure Content where
  enabledRegions : List String
  buckets : Except Thrown (List Bucket)
  bucket : String → Option Bucket
  known : ∀ bs, buckets = .ok bs → ∀ b ∈ bs, b.name ≠ "" ∧
    ∃ b', bucket (generateId [b.name, b.region]) = some b' ∧ b'.name = b.name
  objects : String → String → Option String → Except Thrown (List AwsObject)

def columns : CloudColumns := EntityIds.bucketObject

def mapper : MapperBase := ofColumns columns "id"

variable (c : Content)

-- an object of a bucket that is not found has none of the columns
def bucketObjectMapper (instance' : AwsObject) (bucket region : String) : Except Thrown BucketObject :=
  match instance'.key.filter (· ≠ "") with
  | none => .error (.error "Received a bucket object without a key")
  | some key =>
    match c.bucket (generateId [bucket, region]) with
    | none => .ok { key := "", bucketName := "", region := "" }
    | some bucketInstance => .ok {
        key
        bucketName := bucketInstance.name
        bucket := some bucketInstance
        region
        eTag := instance'.eTag
      }

def readOne (id : String) : Except Thrown (Option BucketObject) :=
  let fields := mapper.idFields id
  let bucketName := (EntityIds.field fields "bucketName").getD "undefined"
  match (EntityIds.field fields "region").filter c.enabledRegions.contains with
  | none => .ok none
  | some region =>
    match c.objects region bucketName (EntityIds.field fields "key") with
    | .error err => .error err
    | .ok [] => .ok none
    | .ok (o :: _) => (bucketObjectMapper c o bucketName region).map some

-- an object without a key ends the bucket
def objectsOf (b : Bucket) : List AwsObject → List BucketObject
  | [] => []
  | o :: objects =>
    match bucketObjectMapper c o b.name b.region with
    | .error _ => []
    | .ok bo => bo :: objectsOf b objects

def readAll : Except Thrown (List BucketObject) :=
  c.buckets.map fun rawBuckets => rawBuckets.flatMap fun b =>
    match c.objects b.region b.name none with
    | .error _ => []
    | .ok objects => objectsOf c b objects

def readFn : ReadFn BucketObject where
  entityName := "BucketObject"
  entityId e := .ok e.entityId
  one := readOne c
  all := readAll c

def keyed (o : AwsObject) : Bool := Aws.truthy o.key

-- an enabled bucket has an object that is listed under the key and the bucket name of an id
def Listed (id : String) : Prop :=
  ∃ bs b objects o, c.buckets = .ok bs ∧ b ∈ bs ∧ c.objects b.region b.name none = .ok objects ∧
    o ∈ objects.takeWhile keyed ∧ generateId [o.key.getD "", b.name] = id

variable {c} {id : String} {all : List BucketObject}

-- the region is not a part of the id
theorem readOne_eq (id : String) : readOne c id = .ok none := by
  have hregion : EntityIds.field (mapper.idFields id) "region" = none :=
    field_idFields_of_not_mem (by decide)
  simp [readOne, hregion]

theorem bucketObjectMapper_keyed {b : Bucket} {bs : List Bucket} {o : AwsObject} (hbs : c.buckets = .ok bs)
    (hb : b ∈ bs) (ho : keyed o = true) : ∃ bo, bucketObjectMapper c o b.name b.region = .ok bo ∧
      bo.entityId = generateId [o.key.getD "", b.name] := by
  obtain ⟨hname, b', hb', hsame⟩ := c.known bs hbs b hb
  obtain ⟨key, hkey⟩ := Aws.truthy_some ho
  have hne : key ≠ "" := by
    rw [keyed, hkey] at ho
    simpa [Aws.truthy] using ho
  have hfilter : o.key.filter (· ≠ "") = some key := by simp [hkey, Option.filter, hne]
  rw [bucketObjectMapper, hfilter, hb']
  refine ⟨_, rfl, ?_⟩
  simp [BucketObject.entityId, hsame, hname, hne, hkey]

theorem bucketObjectMapper_unkeyed {o : AwsObject} {bucket region : String} (ho : keyed o = false) :
    ∃ err, bucketObjectMapper c o bucket region = .error err := by
  have hfilter : o.key.filter (· ≠ "") = none := by
    cases hkey : o.key with
    | none => rfl
    | some key =>
      rw [keyed, hkey] at ho
      simpa [Aws.truthy, Option.filter] using ho
  rw [bucketObjectMapper, hfilter]
  exact ⟨_, rfl⟩

theorem mem_objectsOf {b : Bucket} {bs : List Bucket} {objects : List AwsObject} (hbs : c.buckets = .ok bs)
    (hb : b ∈ bs) : (∃ bo ∈ objectsOf c b objects, bo.entityId = id) ↔
      ∃ o ∈ objects.takeWhile keyed, generateId [o.key.getD "", b.name] = id := by
  induction objects with
  | nil => simp [objectsOf]
  | cons o objects ih =>
    rw [objectsOf]
    cases ho : keyed o with
    | true =>
      obtain ⟨bo, hbo, hentity⟩ := bucketObjectMapper_keyed hbs hb ho
      rw [hbo, List.takeWhile_cons_of_pos ho]
      simp only [List.exists_mem_cons_iff, ih, hentity]
    | false =>
      obtain ⟨err, herr⟩ := @bucketObjectMapper_unkeyed c o b.name b.region ho
      rw [herr, List.takeWhile_cons_of_neg (by rw [ho]; exact Bool.false_ne_true)]
      simp

theorem listed_iff (hall : readAll c = .ok all) : Listed c id ↔ ∃ bo ∈ all, bo.entityId = id := by
  cases hbuckets : c.buckets with
  | error err =>
    rw [readAll, hbuckets] at hall
    cases hall
  | ok bs =>
    rw [readAll, hbuckets] at hall
    cases hall
    constructor
    · rintro ⟨bs', b, objects, o, hbs, hb, hobjects, ho, hid⟩
      obtain rfl : bs = bs' := Except.ok.inj (hbuckets.symm.trans hbs)
      obtain ⟨bo, hbo, hentity⟩ := (mem_objectsOf hbs hb).mpr ⟨o, ho, hid⟩
      refine ⟨bo, List.mem_flatMap.mpr ⟨b, hb, ?_⟩, hentity⟩
      rwa [hobjects]
    · rintro ⟨bo, hbo, hentity⟩
      obtain ⟨b, hb, hbo⟩ := List.mem_flatMap.mp hbo
      cases hobjects : c.objects b.region b.name none with
      | error err =>
        rw [hobjects] at hbo
        exact absurd hbo List.not_mem_nil
      | ok objects =>
        rw [hobjects] at hbo
        obtain ⟨o, ho, hid⟩ := (mem_objectsOf hbuckets hb).mp ⟨bo, hbo, hentity⟩
        exact ⟨bs, b, objects, o, hbuckets, hb, hobjects, ho, hid⟩

-- a read by id never finds an object
theorem reads_agree_iff (hall : (readFn c).all = .ok all) :
    (readFn c).Agrees id all ↔ id ≠ "" ∧ ¬ Listed c id := by
  have hone : (readFn c).one id = .ok none := @readOne_eq c id
  rw [ReadFn.agrees_iff, hone, listed_iff hall]
  refine and_congr_right fun _ => ?_
  constructor
  · rintro (⟨e, -, -, hnone⟩ | ⟨hothers, -⟩)
    · cases hnone
    · rintro ⟨bo, hbo, hid⟩
      exact hothers bo hbo (congrArg Except.ok hid)
  · intro h
    exact .inr ⟨fun bo hbo hid => h ⟨bo, hbo, Except.ok.inj hid⟩, rfl⟩

end BucketObjects

end Iasql
