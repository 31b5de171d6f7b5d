import Iasql.Calculus.Program
import Iasql.Calculus.Tables
import Iasql.MemoCoherence
import Iasql.RecordSets

namespace Iasql.Route53

open Program Prog EntityIds Shared

section Names

-- s.indexOf(sub)
def indexOf (s sub : String) : Option Nat :=
  (List.range (s.toList.length + 1)).find? fun i => sub.toList.isPrefixOf (s.toList.drop i)

def getNameFromDomain (recordName domain : String) : String :=
  String.ofList (recordName.toList.take ((indexOf recordName domain).getD 0))

def renamed (oldDomainName domainName recordName : String) : String :=
  let name := getNameFromDomain recordName oldDomainName
  if name ≠ "" then name ++ domainName else domainName

variable {name domain p : String}

theorem renamed_eq (old new name : String) :
    renamed old new name = getNameFromDomain name old ++ new := by
  unfold renamed
  dsimp only
  split
  · rfl
  · next h => rw [not_not.mp h, String.empty_append]

theorem indexOf_le {i j : Nat} (hi : indexOf name domain = some i)
    (hj : domain.toList <+: name.toList.drop j) : i ≤ j := by
  refine Nat.not_lt.mp fun hlt => ?_
  have hbefore := (List.find?_range_eq_some.mp hi).2.2 j hlt
  rw [List.isPrefixOf_iff_prefix.mpr hj] at hbefore
  cases hbefore

theorem indexOf_isSome {j : Nat} (hj : domain.toList <+: name.toList.drop j)
    (hlen : j ≤ name.toList.length) : ∃ i, indexOf name domain = some i := by
  refine Option.isSome_iff_exists.mp (List.find?_isSome.mpr ⟨j, ?_, ?_⟩)
  · exact List.mem_range.mpr (Nat.lt_succ_of_le hlen)
  · exact List.isPrefixOf_iff_prefix.mpr hj

-- a prefix is kept whole only where the old domain starts nowhere before its end
theorem renamed_append_iff (old new p : String) :
    renamed old new (p ++ old) = p ++ new ↔ indexOf (p ++ old) old = some p.toList.length := by
  have hp : old.toList <+: (p ++ old).toList.drop p.toList.length := by
    have hdrop : (p ++ old).toList.drop p.toList.length = old.toList := by
      rw [String.toList_append, List.drop_left]
    exact hdrop ▸ List.prefix_refl _
  have hlen : p.toList.length ≤ (p ++ old).toList.length := by simp
  obtain ⟨i, hi⟩ := indexOf_isSome hp hlen
  have hle := indexOf_le hi hp
  have hcut : getNameFromDomain (p ++ old) old = String.ofList (p.toList.take i) := by
    rw [getNameFromDomain, hi, Option.getD_some, String.toList_append,
      List.take_append_of_le_length hle]
  rw [renamed_eq, hcut, hi, Option.some.injEq]
  constructor
  · intro h
    have hlist := congrArg (fun s : String => s.toList.length) h
    simp only [String.toList_append, List.length_append, String.toList_ofList, List.length_take] at hlist
    omega
  · rintro rfl
    rw [List.take_length, String.ofList_toList]

end Names

section Service

structure AwsHostedZone where
  id : Option String := none
  name : Option String := none
deriving DecidableEq

-- what the service answers, and the record sets a cloud read finds once the zone is there
structure Route53Client where
  createHostedZone : String → Option AwsHostedZone
  getHostedZone : String → Option AwsHostedZone
  recordSets : List ResourceRecordSet

def hostedZoneMapper (hz : AwsHostedZone) : Option EntityIds.Entity :=
  if Aws.truthy hz.id && Aws.truthy hz.name then
    some (((∅ : EntityIds.Entity).set "hostedZoneId" (.str (hz.id.getD ""))).set "domainName"
      (.str (hz.name.getD "")))
  else none

def createOne (aws : Route53Client) (e : EntityIds.Entity) :
    Except Thrown (Option EntityIds.Entity) :=
  let id := (aws.createHostedZone (column e "domainName").text).bind (·.id)
  if Aws.truthy id then
    .ok (((aws.getHostedZone (id.getD "")).bind hostedZoneMapper).map
      fun newEntity => newEntity.set "id" (column e "id"))
  else .error (.error "How this happen!?")

def createEach (aws : Route53Client) :
    List Ref → Heap ColumnValue → Except Thrown (List Ref) × Heap ColumnValue
  | [], h => (.ok [], h)
  | e :: es, h =>
    match createOne aws (h.objects e) with
    | .error err => (.error err, h)
    | .ok none => createEach aws es h
    | .ok (some newEntity) =>
      let rest := createEach aws es (h.alloc newEntity)
      (rest.1.map (h.next :: ·), rest.2)

theorem createEach_grows (aws : Route53Client) (es : List Ref) (h : Heap ColumnValue) :
    h.next ≤ (createEach aws es h).2.next := by
  induction es generalizing h with
  | nil => exact Nat.le_refl _
  | cons e es ih =>
    rw [createEach]
    split
    · exact Nat.le_refl _
    · exact ih h
    · exact (Nat.le_succ _).trans (ih (h.alloc _))

theorem createEach_known (aws : Route53Client) (es : List Ref) (h : Heap ColumnValue)
    {out : List Ref} (hout : (createEach aws es h).1 = .ok out) :
    ∀ e ∈ out, e < (createEach aws es h).2.next := by
  induction es generalizing h out with
  | nil =>
    cases hout
    exact fun e he => absurd he List.not_mem_nil
  | cons e es ih =>
    rw [createEach] at hout ⊢
    split at hout
    · cases hout
    · exact ih h hout
    · next newEntity _ =>
      cases hrest : (createEach aws es (h.alloc newEntity)).1 with
      | error err => simp [hrest, Except.map] at hout
      | ok rest =>
        simp only [hrest, Except.map, Except.ok.injEq] at hout
        subst hout
        intro f hf
        rcases List.mem_cons.mp hf with rfl | hf
        · exact (Nat.lt_succ_self _).trans_le (createEach_grows aws es (h.alloc newEntity))
        · exact ih (h.alloc newEntity) hrest f hf

def createFn (aws : Route53Client) : CreateFn ColumnValue := fun es h =>
  { heap := (createEach aws es h).2
    grows := createEach_grows aws es h
    out := (createEach aws es h).1.map fun out => some (.many out)
    known := by
      intro o ho e he
      cases hout : (createEach aws es h).1 with
      | error err => simp [hout, Except.map] at ho
      | ok out =>
        simp only [hout, Except.map, Except.ok.injEq, Option.some.injEq] at ho
        subst ho
        exact createEach_known aws es h hout e he
    es := es }

end Service

section Update

-- a row of resource_record_set, with the columns a rename reads and writes
structure RecordRow where
  id : Nat
  name : String
  recordType : RecordType
  record : Option String := none
  ttl : Option Nat := none
  parentHostedZoneId : Option Nat
deriving DecidableEq

-- UQ_name__record_type
def RecordRow.unique (r : RecordRow) : Option (Nat × String × RecordType) :=
  r.parentHostedZoneId.map fun zone => (zone, r.name, r.recordType)

-- memory holds ctx.memo.cloud.HostedZone
structure State where
  memory : Memory ColumnValue
  hostedZones : List EntityIds.Entity
  records : List RecordRow
  nextRecordId : Nat

def hostedZoneColumns : CloudColumns := ⟨["hostedZoneId"], by simp, by simp⟩

def hostedZoneCloud : Shared.Crud ColumnValue where
  entityName := "HostedZone"
  dest := .cloud
  entityId := (ofColumns hostedZoneColumns "id").entityId

def State.column (s : State) (e : Ref) (col : String) : ColumnValue :=
  EntityIds.column (s.memory.heap.objects e) col

def isDefault (t : RecordType) : Bool := t = .NS || t = .SOA

def RecordRow.isOf (r : RecordRow) (zoneId : ColumnValue) : Bool :=
  r.parentHostedZoneId.any fun id => ColumnValue.num id = zoneId

def create (aws : Route53Client) (e : Ref) : Prog State Thrown (Option Ref) := fun s =>
  match hostedZoneCloud.create (createFn aws) (.one e) s.memory with
  | (.ok (some (.one newEntity)), memory) => (.returned (some newEntity), { s with memory })
  | (.ok _, memory) => (.returned none, { s with memory })
  | (.error err, memory) => (.thrown err, { s with memory })

def saveRecords (rows : List RecordRow) : Prog State Thrown Unit := fun s =>
  match Tables.save RecordRow.id RecordRow.unique rows s.records with
  | some records => (.returned (), { s with records })
  | none =>
    (.thrown (.error "duplicate key value violates unique constraint \"UQ_name__record_type\""), s)

def rowsOf : List ResourceRecordSet → Nat → List RecordRow
  | [], _ => []
  | rrs :: rrss, nextRecordId =>
    { id := nextRecordId, name := rrs.name, recordType := rrs.recordType, record := rrs.record
      ttl := rrs.ttl, parentHostedZoneId := rrs.parentHostedZone.id } ::
        rowsOf rrss (nextRecordId + 1)

def createRecords (rrss : List ResourceRecordSet) : Prog State Thrown Unit := do
  let rows ← reads fun s : State => rowsOf rrss s.nextRecordId
  saveRecords rows
  writes fun s => { s with nextRecordId := s.nextRecordId + rrss.length }

def readRecords : Prog State Thrown (List RecordRow) := do
  let dbRecords ← reads State.records
  -- the zone of every record is asked for its id
  if dbRecords.any fun r => r.parentHostedZoneId.isNone then
    fail (.error "Cannot read properties of undefined (reading 'id')")
  else pure dbRecords

def relevantCloudRecords (aws : Route53Client) (hostedZoneId : ColumnValue) :
    List ResourceRecordSet :=
  aws.recordSets.filter fun rrs =>
    rrs.parentHostedZone.hostedZoneId.any (ColumnValue.str · = hostedZoneId) &&
      isDefault rrs.recordType

def recordsToRename (id : ColumnValue) (dbRecords : List RecordRow) : List RecordRow :=
  dbRecords.filter fun r => r.isOf id && !isDefault r.recordType

-- newEntity.id = cloudRecord.id; create has saved the row with this id already
def takeOver (newEntity : Ref) (id : ColumnValue) (s : State) : State :=
  let entity := (s.memory.heap.objects newEntity).set "id" id
  { s with
    memory := { s.memory with
      heap := { s.memory.heap with
        objects := Function.update s.memory.heap.objects newEntity entity } }
    hostedZones := Tables.put (EntityIds.column · "id") entity s.hostedZones }

def updateOne (aws : Route53Client) (e : Ref) : Prog State Thrown (List Ref) := do
  let s ← reads id
  match s.memory.memo.get? (s.column e "hostedZoneId").joined with
  | none => fail (.error "Cannot read properties of undefined (reading 'domainName')")
  | some cloudRecord =>
    let oldDomainName := s.column cloudRecord "domainName"
    match ← create aws e with
    | none => pure []
    | some newEntity =>
      let cloudId ← reads fun s : State => s.column cloudRecord "id"
      writes (takeOver newEntity cloudId)
      let hostedZoneId ← reads fun s : State => s.column newEntity "hostedZoneId"
      let dbRecords ← readRecords
      writes fun s : State =>
        { s with records := s.records.filter fun r => !(r.isOf cloudId && isDefault r.recordType) }
      createRecords (relevantCloudRecords aws hostedZoneId)
      let id ← reads fun s : State => s.column e "id"
      let domainName ← reads fun s : State => s.column cloudRecord "domainName"
      saveRecords ((recordsToRename id dbRecords).map fun r =>
        { r with name := renamed oldDomainName.text domainName.text r.name })
      pure [newEntity]

def update (aws : Route53Client) (es : List Ref) : Prog State Thrown (List Ref) :=
  gather (updateOne aws) es

end Update

section Creation

variable {aws : Route53Client} {s : State} {e cloudRecord : Ref} {id : Nat}
  {hostedZoneId newHostedZoneId oldDomain newDomain : String}

theorem get?_assign_self {h : Heap ColumnValue} {col : String} {v : ColumnValue} (f : Ref)
    (hv : (h.objects e).get? col = some v) : ((h.assign f e).objects e).get? col = some v := by
  by_cases hf : e = f
  · subst hf
    rw [Crud.assign_objects_self]
    exact Dict.get?_assign_of_some _ hv
  · rwa [Crud.assign_objects_ne h hf]

theorem entityId_of_hostedZoneId {d : EntityIds.Entity}
    (hid : d.get? "hostedZoneId" = some (.str hostedZoneId)) (hne : hostedZoneId ≠ "") :
    hostedZoneCloud.entityId d = hostedZoneId := by
  have hcol : EntityIds.column d "hostedZoneId" = .str hostedZoneId := by
    rw [EntityIds.column, hid, Option.getD_some]
  have hjoin : join [hostedZoneId] = hostedZoneId := by simp [join, List.intercalate]
  simp only [hostedZoneCloud, MapperBase.entityId, hostedZoneColumns, List.any_cons, List.any_nil,
    hcol, ColumnValue.truthy, List.map_cons, List.map_nil, ColumnValue.joined, ColumnValue.text,
    hjoin]
  simp [hne]

-- e is a zone of the database whose memoised cloud record has another domain
structure Renames (s : State) (e cloudRecord : Ref) (id : Nat)
    (hostedZoneId oldDomain newDomain : String) : Prop where
  given : e < s.memory.heap.next
  known : cloudRecord < s.memory.heap.next
  memoised : s.memory.memo.get? hostedZoneId = some cloudRecord
  created : hostedZoneId ≠ ""
  hostedZoneId : (s.memory.heap.objects e).get? "hostedZoneId" = some (.str hostedZoneId)
  id : (s.memory.heap.objects e).get? "id" = some (.num id)
  newDomain : (s.memory.heap.objects e).get? "domainName" = some (.str newDomain)
  oldDomain : (s.memory.heap.objects cloudRecord).get? "domainName" = some (.str oldDomain)

-- the service makes the zone under an id of its own, with NS and SOA record sets told apart
structure Answers (aws : Route53Client) (s : State) (id : Nat)
    (newDomain newHostedZoneId : String) : Prop where
  named : newHostedZoneId ≠ ""
  created : (aws.createHostedZone newDomain).bind (·.id) = some newHostedZoneId
  found : ∃ name, name ≠ "" ∧
    aws.getHostedZone newHostedZoneId = some ⟨some newHostedZoneId, some name⟩
  fresh : s.memory.memo.get? newHostedZoneId = none
  owned : ∀ rrs ∈ relevantCloudRecords aws (.str newHostedZoneId),
    rrs.parentHostedZone.id = some id
  apart : (relevantCloudRecords aws (.str newHostedZoneId)).Pairwise fun r t =>
    ¬ (r.name = t.name ∧ r.recordType = t.recordType)

theorem createOne_answered (ha : Answers aws s id newDomain newHostedZoneId)
    {d : EntityIds.Entity} (hdomain : d.get? "domainName" = some (.str newDomain)) :
    ∃ newEntity, createOne aws d = .ok (some newEntity) ∧
      newEntity.get? "hostedZoneId" = some (.str newHostedZoneId) := by
  obtain ⟨name, hname, hfound⟩ := ha.found
  have hcol : (EntityIds.column d "domainName").text = newDomain := by
    rw [EntityIds.column, hdomain]
    rfl
  have htruthy : ∀ {x : String}, x ≠ "" → Aws.truthy (some x) = true := by
    intro x hx
    simpa [Aws.truthy] using hx
  simp only [createOne, hcol, ha.created, htruthy ha.named, if_true, Option.getD_some, hfound,
    Option.bind_some, hostedZoneMapper, htruthy hname, Bool.and_self, Option.map_some]
  refine ⟨_, rfl, ?_⟩
  rw [Dict.get?_set_ne (by decide), Dict.get?_set_ne (by decide), Dict.get?_set_self]

-- the memoised cloud record has taken over what e says, and the new zone has an object of its own
theorem create_answered (hr : Renames s e cloudRecord id hostedZoneId oldDomain newDomain)
    (ha : Answers aws s id newDomain newHostedZoneId) :
    ∃ newEntity memory, create aws e s =
        (.returned (some s.memory.heap.next), { s with memory }) ∧
      memory.heap = (s.memory.heap.assign cloudRecord e).alloc newEntity ∧
      newEntity.get? "hostedZoneId" = some (.str newHostedZoneId) := by
  have hheap : ((s.memory.heap.assign cloudRecord e).objects e).get? "domainName" =
      some (.str newDomain) := get?_assign_self cloudRecord hr.newDomain
  obtain ⟨newEntity, hcreate, hid⟩ := createOne_answered ha hheap
  have hmemo : hostedZoneCloud.memoOne e s.memory =
      (cloudRecord, { s.memory with heap := s.memory.heap.assign cloudRecord e }) := by
    refine Crud.memoOne_of_some ?_
    rw [entityId_of_hostedZoneId hr.hostedZoneId hr.created]
    exact hr.memoised
  have heach : createEach aws [e] (s.memory.heap.assign cloudRecord e) =
      (.ok [s.memory.heap.next], (s.memory.heap.assign cloudRecord e).alloc newEntity) := by
    simp only [createEach, hcreate]
    rfl
  have hnew : hostedZoneCloud.memoOne s.memory.heap.next
        ⟨(s.memory.heap.assign cloudRecord e).alloc newEntity, s.memory.memo⟩ =
      (s.memory.heap.next, ⟨(s.memory.heap.assign cloudRecord e).alloc newEntity,
        s.memory.memo.set newHostedZoneId s.memory.heap.next⟩) := by
    have hobject : ((s.memory.heap.assign cloudRecord e).alloc newEntity).objects
        s.memory.heap.next = newEntity := Function.update_self _ _ _
    have hentityId := entityId_of_hostedZoneId hid ha.named
    rw [Crud.memoOne_of_none] <;> simp only [hobject, hentityId]
    exact ha.fresh
  refine ⟨newEntity, ⟨(s.memory.heap.assign cloudRecord e).alloc newEntity,
    s.memory.memo.set newHostedZoneId s.memory.heap.next⟩, ?_, rfl, hid⟩
  simp only [create, Crud.create, Entities.es, Crud.memoEach, hmemo, Entities.inArray, createFn,
    heach, Except.map, Crud.memo, hnew]
  rfl

end Creation

section Rows

variable {aws : Route53Client} {s : State} {id next : Nat} {r : RecordRow}
  {rrss : List ResourceRecordSet} {rows out : List RecordRow}

-- what the database keeps to of its own: the primary key, its sequence and the zones of the records
structure WellKept (s : State) : Prop where
  ids : (s.records.map (·.id)).Nodup
  sequence : ∀ r ∈ s.records, r.id < s.nextRecordId
  owned : ∀ r ∈ s.records, r.parentHostedZoneId ≠ none

theorem isOf_iff : r.isOf (.num id) = true ↔ r.parentHostedZoneId = some id := by
  cases h : r.parentHostedZoneId with
  | none => simp [RecordRow.isOf, h]
  | some zone => simpa [RecordRow.isOf, h] using Int.ofNat_inj

theorem unique_inj {t : RecordRow} (hnone : t.unique ≠ none) (h : r.unique = t.unique) :
    r.parentHostedZoneId = t.parentHostedZoneId ∧ r.name = t.name ∧ r.recordType = t.recordType := by
  cases hr : r.parentHostedZoneId <;> cases ht : t.parentHostedZoneId <;>
    simp_all [RecordRow.unique]

theorem unique_ne_none (h : r.parentHostedZoneId ≠ none) : r.unique ≠ none :=
  fun hnone => h (Option.map_eq_none_iff.mp hnone)

theorem mem_recordsToRename :
    r ∈ recordsToRename (.num id) rows ↔
      r ∈ rows ∧ r.parentHostedZoneId = some id ∧ isDefault r.recordType = false := by
  rw [recordsToRename, List.mem_filter, Bool.and_eq_true, isOf_iff, Bool.not_eq_true']

theorem mem_rowsOf (h : r ∈ rowsOf rrss next) :
    next ≤ r.id ∧ ∃ rrs ∈ rrss, r.name = rrs.name ∧ r.recordType = rrs.recordType ∧
      r.parentHostedZoneId = rrs.parentHostedZone.id := by
  induction rrss generalizing next with
  | nil => cases h
  | cons rrs rrss ih =>
    rcases List.mem_cons.mp h with rfl | h
    · exact ⟨Nat.le_refl _, rrs, List.mem_cons_self, rfl, rfl, rfl⟩
    · obtain ⟨hle, t, ht, heq⟩ := ih h
      exact ⟨Nat.le_of_succ_le hle, t, List.mem_cons_of_mem _ ht, heq⟩

theorem rowsOf_ids (rrss : List ResourceRecordSet) (next : Nat) :
    ((rowsOf rrss next).map (·.id)).Nodup := by
  induction rrss generalizing next with
  | nil => exact List.nodup_nil
  | cons rrs rrss ih =>
    refine List.nodup_cons.mpr ⟨fun hmem => ?_, ih (next + 1)⟩
    obtain ⟨r, hr, hid⟩ := List.mem_map.mp hmem
    have hle : next + 1 ≤ r.id := (mem_rowsOf hr).1
    have hid : r.id = next := hid
    omega

theorem rowsOf_apart
    (h : rrss.Pairwise fun r t => ¬ (r.name = t.name ∧ r.recordType = t.recordType)) (next : Nat) :
    (rowsOf rrss next).Pairwise fun r t => t.unique ≠ none → r.unique ≠ t.unique := by
  induction rrss generalizing next with
  | nil => exact List.Pairwise.nil
  | cons rrs rrss ih =>
    obtain ⟨hhead, htail⟩ := List.pairwise_cons.mp h
    refine List.pairwise_cons.mpr ⟨fun t ht hnone heq => ?_, ih htail (next + 1)⟩
    obtain ⟨-, u, hu, hname, htype, -⟩ := mem_rowsOf ht
    obtain ⟨-, hname', htype'⟩ := unique_inj hnone heq
    exact hhead u hu ⟨hname'.trans hname, htype'.trans htype⟩

theorem readRecords_apply (hw : WellKept s) : readRecords s = (.returned s.records, s) := by
  have hany : (s.records.any fun r => r.parentHostedZoneId.isNone) = false := by
    refine List.any_eq_false.mpr fun r hr hnone => hw.owned r hr ?_
    exact Option.isNone_iff_eq_none.mp hnone
  simp only [readRecords, reads_bind_apply, hany, Bool.false_eq_true, if_false, pure_apply]

theorem saveRecords_some (h : Tables.save RecordRow.id RecordRow.unique rows s.records = some out) :
    saveRecords rows s = (.returned (), { s with records := out }) := by
  simp only [saveRecords, h]

theorem saveRecords_none (h : Tables.save RecordRow.id RecordRow.unique rows s.records = none) :
    ∃ err, saveRecords rows s = (.thrown err, s) := by
  simp only [saveRecords, h]
  exact ⟨_, rfl⟩

def withoutDefaults (id : Nat) (rows : List RecordRow) : List RecordRow :=
  rows.filter fun r => !(r.isOf (.num id) && isDefault r.recordType)

theorem mem_withoutDefaults :
    r ∈ withoutDefaults id rows ↔
      r ∈ rows ∧ ¬ (r.parentHostedZoneId = some id ∧ isDefault r.recordType = true) := by
  rw [withoutDefaults, List.mem_filter, Bool.not_eq_true', ← Bool.not_eq_true, Bool.and_eq_true,
    isOf_iff]

-- the NS and SOA rows of the new zone, and what is left of the old rows
structure Replaced (id next : Nat) (rows out : List RecordRow) : Prop where
  identified : Tables.Identified RecordRow.id out
  kept : ∀ r ∈ withoutDefaults id rows, r ∈ out
  defaults : ∀ r ∈ out, r ∈ withoutDefaults id rows ∨ next ≤ r.id ∧ isDefault r.recordType = true

theorem new_of_mem {newHostedZoneId newDomain : String}
    (ha : Answers aws s id newDomain newHostedZoneId)
    (h : r ∈ rowsOf (relevantCloudRecords aws (.str newHostedZoneId)) next) :
    next ≤ r.id ∧ isDefault r.recordType = true ∧ r.parentHostedZoneId = some id := by
  obtain ⟨hle, rrs, hrrs, -, htype, hzone⟩ := mem_rowsOf h
  have hdefault := ((Bool.and_eq_true _ _).mp (List.mem_filter.mp hrrs).2).2
  exact ⟨hle, by rw [htype, hdefault], hzone.trans (ha.owned rrs hrrs)⟩

theorem createRecords_apply {newHostedZoneId newDomain : String}
    (ha : Answers aws s id newDomain newHostedZoneId) (hw : WellKept s) {t : State}
    (ht : t.records = withoutDefaults id s.records) (hnext : t.nextRecordId = s.nextRecordId) :
    ∃ u, createRecords (relevantCloudRecords aws (.str newHostedZoneId)) t = (.returned (), u) ∧
      u.memory = t.memory ∧ Replaced id s.nextRecordId s.records u.records := by
  have hold : ∀ r ∈ withoutDefaults id s.records, r ∈ s.records ∧ r.id < s.nextRecordId :=
    fun r hr => ⟨(mem_withoutDefaults.mp hr).1, hw.sequence r (mem_withoutDefaults.mp hr).1⟩
  have hnew : ∀ b ∈ rowsOf (relevantCloudRecords aws (.str newHostedZoneId)) s.nextRecordId,
      ∀ r ∈ withoutDefaults id s.records, b.unique ≠ none → r.unique ≠ b.unique := by
    intro b hb r hr hnone heq
    obtain ⟨-, hdefault, hzone⟩ := new_of_mem ha hb
    obtain ⟨hparent, -, htype⟩ := unique_inj hnone heq
    exact (mem_withoutDefaults.mp hr).2 ⟨hparent.trans hzone, by rw [htype, hdefault]⟩
  obtain ⟨out, hout⟩ := Option.isSome_iff_exists.mp
    (@Tables.save_isSome_of_new _ _ _ _ _ RecordRow.id _ _ _ hnew (rowsOf_apart ha.apart s.nextRecordId))
  have hids := rowsOf_ids (relevantCloudRecords aws (.str newHostedZoneId)) s.nextRecordId
  have hmem := fun r => @Tables.mem_save _ _ _ _ _ _ _ r _ _ _ hout hids
  refine ⟨{ t with
    records := out
    nextRecordId := t.nextRecordId + (relevantCloudRecords aws (.str newHostedZoneId)).length },
    ?_, rfl, ?_, fun r hr => (hmem r).mpr (.inr ⟨hr, ?_⟩), fun r hr => ?_⟩
  · rw [← ht, ← hnext] at hout
    rw [createRecords, reads_bind_apply, bind_of_returned (saveRecords_some hout)]
    rfl
  · intro r hr u hu heq
    rcases (hmem r).mp hr with hr | ⟨hr, hnot⟩ <;> rcases (hmem u).mp hu with hu | ⟨hu, hnot'⟩
    · exact List.inj_on_of_nodup_map hids hr hu heq
    · exact absurd (List.mem_map.mpr ⟨r, hr, heq⟩) hnot'
    · exact absurd (List.mem_map.mpr ⟨u, hu, heq.symm⟩) hnot
    · exact List.inj_on_of_nodup_map hw.ids (hold r hr).1 (hold u hu).1 heq
  · intro hin
    obtain ⟨b, hb, hid⟩ := List.mem_map.mp hin
    have hle := (new_of_mem ha hb).1
    have hlt := (hold r hr).2
    omega
  · rcases (hmem r).mp hr with hr | ⟨hr, -⟩
    · exact .inr ⟨(new_of_mem ha hr).1, (new_of_mem ha hr).2.1⟩
    · exact .inl hr

end Rows

section Renaming

variable {aws : Route53Client} {s : State} {e cloudRecord : Ref} {id : Nat}
  {hostedZoneId newHostedZoneId oldDomain newDomain : String}

def RecordRow.rename (oldDomain newDomain : String) (r : RecordRow) : RecordRow :=
  { r with name := renamed oldDomain newDomain r.name }

theorem get?_created {memory : Memory ColumnValue} {newEntity : EntityIds.Entity} {col : String}
    {v : ColumnValue} (hr : Renames s e cloudRecord id hostedZoneId oldDomain newDomain)
    (hheap : memory.heap = (s.memory.heap.assign cloudRecord e).alloc newEntity)
    (hv : (s.memory.heap.objects e).get? col = some v) :
    (memory.heap.objects cloudRecord).get? col = some v ∧
      (memory.heap.objects e).get? col = some v := by
  have hobjects : ∀ f < s.memory.heap.next,
      memory.heap.objects f = (s.memory.heap.assign cloudRecord e).objects f := by
    intro f hf
    rw [hheap]
    exact Function.update_of_ne hf.ne _ _
  rw [hobjects _ hr.known, hobjects _ hr.given, Crud.assign_objects_self]
  exact ⟨Dict.get?_assign_of_some _ hv, get?_assign_self cloudRecord hv⟩

theorem takeOver_column {newEntity f : Ref} {v : ColumnValue} (hf : f ≠ newEntity) (col : String) :
    (takeOver newEntity v s).column f col = s.column f col := by
  rw [State.column, takeOver]
  dsimp only
  rw [Function.update_of_ne hf]
  rfl

-- all that is left to do is to save the renamed records
theorem updateOne_apply (hr : Renames s e cloudRecord id hostedZoneId oldDomain newDomain)
    (ha : Answers aws s id newDomain newHostedZoneId) (hw : WellKept s) :
    ∃ t newEntity, Replaced id s.nextRecordId s.records t.records ∧
      updateOne aws e s =
        (do saveRecords ((recordsToRename (.num id) s.records).map (RecordRow.rename oldDomain newDomain))
            pure [newEntity]) t := by
  obtain ⟨newEntity, memory, hcreate, hheap, hnewId⟩ := create_answered hr ha
  have hmemo : s.memory.memo.get? (s.column e "hostedZoneId").joined = some cloudRecord := by
    rw [State.column, EntityIds.column, hr.hostedZoneId]
    exact hr.memoised
  simp only [updateOne, reads_bind_apply, id_eq, hmemo]
  rw [bind_of_returned hcreate]
  dsimp only
  have hcloud := fun {col v} hv => @get?_created s e cloudRecord id hostedZoneId oldDomain newDomain
    memory newEntity col v hr hheap hv
  have hcolumn : ∀ {f col v}, (memory.heap.objects f).get? col = some v → f < s.memory.heap.next →
      (takeOver s.memory.heap.next (.num id) { s with memory }).column f col = v := by
    intro f col v hv hf
    rw [takeOver_column hf.ne, State.column, EntityIds.column, hv, Option.getD_some]
  have hnew : (takeOver s.memory.heap.next (.num id) { s with memory }).column s.memory.heap.next
      "hostedZoneId" = .str newHostedZoneId := by
    rw [State.column, takeOver]
    dsimp only
    have hobject : ((s.memory.heap.assign cloudRecord e).alloc newEntity).objects
        s.memory.heap.next = newEntity := Function.update_self _ _ _
    rw [Function.update_self, EntityIds.column, Dict.get?_set_ne (by decide), hheap, hobject,
      hnewId, Option.getD_some]
  have hcloudId : ({ s with memory } : State).column cloudRecord "id" = .num id := by
    rw [State.column, EntityIds.column, (hcloud hr.id).1, Option.getD_some]
  have hold : (s.column cloudRecord "domainName").text = oldDomain := by
    rw [State.column, EntityIds.column, hr.oldDomain]
    rfl
  generalize hu : takeOver s.memory.heap.next (.num id) { s with memory } = u at hnew hcolumn
  have hrecords : u.records = s.records := by rw [← hu]; rfl
  have hnext : u.nextRecordId = s.nextRecordId := by rw [← hu]; rfl
  have hread : readRecords u = (.returned s.records, u) :=
    (readRecords_apply ⟨hrecords ▸ hw.ids, by rw [hrecords, hnext]; exact hw.sequence,
      hrecords ▸ hw.owned⟩).trans (by rw [hrecords])
  rw [reads_bind_apply, hcloudId, writes_bind_apply, hu, reads_bind_apply, hnew,
    bind_of_returned hread, writes_bind_apply, hrecords]
  obtain ⟨t, hdefaults, hmemory, hreplaced⟩ := @createRecords_apply aws s id newHostedZoneId newDomain
    ha hw ⟨u.memory, u.hostedZones, s.records.filter fun r =>
      !(r.isOf (.num id) && isDefault r.recordType), u.nextRecordId⟩ rfl hnext
  rw [bind_of_returned hdefaults, reads_bind_apply, reads_bind_apply]
  have hsame : ∀ f col, t.column f col = u.column f col := by
    intro f col
    rw [State.column, hmemory]
    rfl
  rw [hsame, hsame, hcolumn (hcloud hr.id).2 hr.given, hcolumn (hcloud hr.newDomain).1 hr.known, hold]
  exact ⟨t, s.memory.heap.next, hreplaced, rfl⟩

-- the records of the zone have the new domain after the prefix they had, the others their names
def RowsRenamed (id : Nat) (oldDomain newDomain : String) (before after : List RecordRow) : Prop :=
  (∀ r ∈ before, r.parentHostedZoneId = some id → isDefault r.recordType = false →
    ∀ p, r.name = p ++ oldDomain → { r with name := p ++ newDomain } ∈ after) ∧
  ∀ r ∈ before, r.parentHostedZoneId ≠ some id → r ∈ after

def RenamesExactly (aws : Route53Client) (s : State) (e : Ref) (id : Nat)
    (oldDomain newDomain : String) : Prop :=
  ∃ out t, update aws [e] s = (.returned out, t) ∧
    RowsRenamed id oldDomain newDomain s.records t.records

-- the old domain starts nowhere in a name before the end of the prefix
def Recognised (s : State) (id : Nat) (oldDomain : String) : Prop :=
  ∀ r ∈ s.records, r.parentHostedZoneId = some id → isDefault r.recordType = false →
    ∀ p, r.name = p ++ oldDomain → indexOf r.name oldDomain = some p.toList.length

-- no record is saved under a name that another one of its type still has, or has got before
def Unclashing (s : State) (id : Nat) (oldDomain newDomain : String) : Prop :=
  (recordsToRename (.num id) s.records).Pairwise fun q r => q.recordType = r.recordType →
    renamed oldDomain newDomain r.name ≠ renamed oldDomain newDomain q.name ∧
      r.name ≠ renamed oldDomain newDomain q.name

section Saving

variable {rows : List RecordRow} {next : Nat}

@[simp] theorem RecordRow.rename_id (r : RecordRow) : (r.rename oldDomain newDomain).id = r.id := by
  rw [RecordRow.rename]

@[simp] theorem RecordRow.rename_name (r : RecordRow) :
    (r.rename oldDomain newDomain).name = renamed oldDomain newDomain r.name := by
  rw [RecordRow.rename]

@[simp] theorem RecordRow.rename_recordType (r : RecordRow) :
    (r.rename oldDomain newDomain).recordType = r.recordType := by
  rw [RecordRow.rename]

@[simp] theorem RecordRow.rename_parentHostedZoneId (r : RecordRow) :
    (r.rename oldDomain newDomain).parentHostedZoneId = r.parentHostedZoneId := by
  rw [RecordRow.rename]

theorem map_rename_id (rs : List RecordRow) :
    (rs.map (RecordRow.rename oldDomain newDomain)).map RecordRow.id = rs.map RecordRow.id := by
  rw [List.map_map]
  exact List.map_congr_left fun r _ => r.rename_id

theorem recordsToRename_ids (hw : WellKept s) :
    ((recordsToRename (.num id) s.records).map (·.id)).Nodup :=
  (List.filter_sublist.map _).nodup hw.ids

theorem unique_eq_iff {q r : RecordRow} (hq : q.parentHostedZoneId = some id)
    (hr : r.parentHostedZoneId = some id) :
    r.unique = q.unique ↔ r.name = q.name ∧ r.recordType = q.recordType := by
  simp [RecordRow.unique, hq, hr]

theorem rename_unique_iff {q r : RecordRow} (hq : q.parentHostedZoneId = some id)
    (hr : r.parentHostedZoneId = some id) :
    ((q.rename oldDomain newDomain).unique ≠ none →
      (r.rename oldDomain newDomain).unique ≠ (q.rename oldDomain newDomain).unique ∧
        r.unique ≠ (q.rename oldDomain newDomain).unique) ↔
    (q.recordType = r.recordType →
      renamed oldDomain newDomain r.name ≠ renamed oldDomain newDomain q.name ∧
        r.name ≠ renamed oldDomain newDomain q.name) := by
  have hq' : (q.rename oldDomain newDomain).parentHostedZoneId = some id :=
    q.rename_parentHostedZoneId.trans hq
  have hsome : (q.rename oldDomain newDomain).unique ≠ none := unique_ne_none (by simp [hq])
  have hr' : (r.rename oldDomain newDomain).parentHostedZoneId = some id :=
    r.rename_parentHostedZoneId.trans hr
  rw [imp_iff_right hsome, ne_eq, unique_eq_iff hq' hr', ne_eq, unique_eq_iff hq' hr]
  rw [RecordRow.rename_name, RecordRow.rename_name, RecordRow.rename_recordType,
    RecordRow.rename_recordType]
  constructor
  · rintro ⟨hrenamed, hname⟩ htype
    exact ⟨fun h => hrenamed ⟨h, htype.symm⟩, fun h => hname ⟨h, htype.symm⟩⟩
  · intro h
    exact ⟨fun ⟨hrenamed, htype⟩ => (h htype.symm).1 hrenamed,
      fun ⟨hname, htype⟩ => (h htype.symm).2 hname⟩

theorem writable_iff (hreplaced : Replaced id next s.records rows) :
    Tables.Writable RecordRow.id RecordRow.unique (RecordRow.rename oldDomain newDomain)
      (recordsToRename (.num id) s.records) rows ↔ Unclashing s id oldDomain newDomain := by
  have hzone : ∀ r ∈ recordsToRename (.num id) s.records, r.parentHostedZoneId = some id :=
    fun r hr => (mem_recordsToRename.mp hr).2.1
  constructor
  · rintro ⟨-, h⟩
    exact h.imp_of_mem fun {q r} hq hr => (rename_unique_iff (hzone q hq) (hzone r hr)).mp
  · intro h
    refine ⟨fun a ha r hr hnotin hnone hkey => ?_, h.imp_of_mem fun {q r} hq hr =>
      (rename_unique_iff (hzone q hq) (hzone r hr)).mpr⟩
    obtain ⟨hparent, -, htype⟩ := unique_inj hnone hkey
    rw [RecordRow.rename_parentHostedZoneId] at hparent
    rw [RecordRow.rename_recordType] at htype
    obtain ⟨-, hazone, hadefault⟩ := mem_recordsToRename.mp ha
    rcases hreplaced.defaults r hr with hold | ⟨-, hdefault⟩
    · refine hnotin (List.mem_map_of_mem (mem_recordsToRename.mpr ⟨?_, hparent.trans hazone, ?_⟩))
      · exact (mem_withoutDefaults.mp hold).1
      · exact (congrArg isDefault htype).trans hadefault
    · have hdefault' : isDefault a.recordType = true := (congrArg isDefault htype).symm.trans hdefault
      rw [hadefault] at hdefault'
      cases hdefault'

end Saving

section Exactness

theorem toRename_kept {rows : List RecordRow} {next : Nat}
    (hreplaced : Replaced id next s.records rows) :
    ∀ r ∈ recordsToRename (.num id) s.records, r ∈ rows := by
  intro r hr
  obtain ⟨hr, -, hdefault⟩ := mem_recordsToRename.mp hr
  refine hreplaced.kept r (mem_withoutDefaults.mpr ⟨hr, fun h => ?_⟩)
  rw [hdefault] at h
  cases h.2

theorem update_returns_iff {t : State} {newEntity : Ref} {rows : List RecordRow}
    {P : List RecordRow → Prop}
    (h : updateOne aws e s = (do saveRecords rows; pure [newEntity]) t) :
    (∃ out u, update aws [e] s = (.returned out, u) ∧ P u.records) ↔
      ∃ records, Tables.save RecordRow.id RecordRow.unique rows t.records = some records ∧
        P records := by
  cases hsave : Tables.save RecordRow.id RecordRow.unique rows t.records with
  | none =>
    obtain ⟨err, herr⟩ := saveRecords_none hsave
    have hone := h.trans (bind_of_thrown herr)
    rw [update, gather, bind_of_thrown hone]
    refine iff_of_false ?_ ?_
    · rintro ⟨out, u, hrun, -⟩
      cases hrun
    · rintro ⟨records, hrecords, -⟩
      cases hrecords
  | some records =>
    have hone := h.trans (bind_of_returned (saveRecords_some hsave))
    have hupdate : update aws [e] s = (.returned [newEntity], { t with records }) := by
      rw [update, gather, bind_of_returned hone]
      rfl
    rw [hupdate]
    constructor
    · rintro ⟨out, u, hrun, hP⟩
      cases hrun
      exact ⟨records, rfl, hP⟩
    · rintro ⟨records', hrecords, hP⟩
      cases hrecords
      exact ⟨_, _, rfl, hP⟩

theorem rowsRenamed_iff {rows : List RecordRow} {next : Nat} (hw : WellKept s)
    (hreplaced : Replaced id next s.records rows) :
    (∃ records, Tables.save RecordRow.id RecordRow.unique
        ((recordsToRename (.num id) s.records).map (RecordRow.rename oldDomain newDomain)) rows =
          some records ∧ RowsRenamed id oldDomain newDomain s.records records) ↔
      Recognised s id oldDomain ∧ Unclashing s id oldDomain newDomain := by
  have hids := @recordsToRename_ids _ id hw
  have hids' : (((recordsToRename (.num id) s.records).map (RecordRow.rename oldDomain newDomain)).map
      RecordRow.id).Nodup := by
    rw [map_rename_id]
    exact hids
  have hsome := @Tables.save_isSome_iff _ _ _ _ _ RecordRow.id RecordRow.unique _ _
    (RecordRow.rename oldDomain newDomain) RecordRow.rename_id (toRename_kept hreplaced)
    hreplaced.identified hids
  rw [writable_iff hreplaced] at hsome
  rw [← hsome, Option.isSome_iff_exists]
  constructor
  · rintro ⟨records, hsave, hzone, -⟩
    refine ⟨fun r hmem howned hdefault p hp => ?_, records, hsave⟩
    have hmemsave := (Tables.mem_save hsave hids').mp (hzone r hmem howned hdefault p hp)
    have hrename : r ∈ recordsToRename (.num id) s.records :=
      mem_recordsToRename.mpr ⟨hmem, howned, hdefault⟩
    rcases hmemsave with hin | ⟨-, hnot⟩
    · obtain ⟨q, hq, heq⟩ := List.mem_map.mp hin
      have hqid : q.id = r.id := by
        have hid := congrArg RecordRow.id heq
        rwa [RecordRow.rename_id] at hid
      obtain rfl : q = r := List.inj_on_of_nodup_map hids hq hrename hqid
      have hname := congrArg RecordRow.name heq
      rw [RecordRow.rename_name] at hname
      rw [hp] at hname ⊢
      exact (renamed_append_iff oldDomain newDomain p).mp hname
    · refine absurd ?_ hnot
      rw [map_rename_id]
      exact List.mem_map.mpr ⟨r, hrename, rfl⟩
  · rintro ⟨hrecognised, records, hsave⟩
    refine ⟨records, hsave, fun r hmem howned hdefault p hp => ?_, fun r hmem hother => ?_⟩
    · have hrename : r ∈ recordsToRename (.num id) s.records :=
        mem_recordsToRename.mpr ⟨hmem, howned, hdefault⟩
      have hname := (renamed_append_iff oldDomain newDomain p).mpr
        (hp ▸ hrecognised r hmem howned hdefault p hp)
      refine (Tables.mem_save hsave hids').mpr (.inl (List.mem_map.mpr ⟨r, hrename, ?_⟩))
      rw [RecordRow.rename, hp, hname]
    · have hkept := hreplaced.kept r (mem_withoutDefaults.mpr ⟨hmem, fun h => hother h.1⟩)
      refine (Tables.mem_save hsave hids').mpr (.inr ⟨hkept, fun hin => ?_⟩)
      rw [map_rename_id] at hin
      obtain ⟨q, hq, hqid⟩ := List.mem_map.mp hin
      obtain rfl : q = r := List.inj_on_of_nodup_map hw.ids (mem_recordsToRename.mp hq).1 hmem hqid
      exact hother (mem_recordsToRename.mp hq).2.1

theorem renamesExactly_iff (hr : Renames s e cloudRecord id hostedZoneId oldDomain newDomain)
    (ha : Answers aws s id newDomain newHostedZoneId) (hw : WellKept s) :
    RenamesExactly aws s e id oldDomain newDomain ↔
      Recognised s id oldDomain ∧ Unclashing s id oldDomain newDomain := by
  obtain ⟨t, newEntity, hreplaced, hone⟩ := updateOne_apply hr ha hw
  rw [RenamesExactly,
    update_returns_iff (P := RowsRenamed id oldDomain newDomain s.records) hone]
  exact rowsRenamed_iff hw hreplaced

end Exactness

section Instances

def zoneColumns (id : ColumnValue) (hostedZoneId domainName : String) : EntityIds.Entity :=
  (((∅ : EntityIds.Entity).set "id" id).set "hostedZoneId" (.str hostedZoneId)).set "domainName"
    (.str domainName)

-- zone 1 of the database is to become example.org., and is example.com. in the cloud
def zoneToRename (records : List RecordRow) : State where
  memory :=
    { heap :=
        { objects := fun f => if f = 0 then zoneColumns (.num 1) "Z1" "example.org."
            else zoneColumns .undefined "Z1" "example.com."
          next := 2 }
      memo := (∅ : Dict String Ref).set "Z1" 1 }
  hostedZones := [zoneColumns (.num 1) "Z1" "example.org."]
  records := records
  nextRecordId := 10

def secondZone : HostedZone := ⟨some 1, some "Z2", "example.org."⟩

def client : Route53Client where
  createHostedZone := fun name => some ⟨some "Z2", some name⟩
  getHostedZone := fun id => some ⟨some id, some "example.org."⟩
  recordSets := [
    { name := "example.org.", recordType := .NS, parentHostedZone := secondZone },
    { name := "example.org.", recordType := .SOA, parentHostedZone := secondZone }]

theorem zoneToRename_renames (records : List RecordRow) :
    Renames (zoneToRename records) 0 1 1 "Z1" "example.com." "example.org." := by
  exact ⟨Nat.two_pos, Nat.one_lt_two, rfl, by decide, rfl, rfl, rfl, rfl⟩

theorem client_answers (records : List RecordRow) :
    Answers client (zoneToRename records) 1 "example.org." "Z2" := by
  refine ⟨by decide, rfl, ⟨"example.org.", by decide, rfl⟩, rfl, ?_, ?_⟩
  · decide
  · decide

def www : RecordRow :=
  { id := 1, name := "www.example.com.", recordType := .A, parentHostedZoneId := some 1 }

-- the domain was typed twice
def twice : RecordRow :=
  { id := 1, name := "example.com.example.com.", recordType := .A, parentHostedZoneId := some 1 }

theorem www_renamed :
    RenamesExactly client (zoneToRename [www]) 0 1 "example.com." "example.org." := by
  refine (renamesExactly_iff (zoneToRename_renames [www]) (client_answers [www])
    ⟨by decide, by decide, by decide⟩).mpr ⟨?_, List.pairwise_singleton _ _⟩
  intro r hr _ _ p hp
  obtain rfl := List.mem_singleton.mp hr
  have hlength : p.toList.length = 4 := by
    have hlen := congrArg (fun s : String => s.toList.length) hp
    simpa [www] using hlen.symm
  rw [hlength]
  decide

theorem twice_not_renamed :
    ¬ RenamesExactly client (zoneToRename [twice]) 0 1 "example.com." "example.org." := by
  have hw : WellKept (zoneToRename [twice]) := ⟨by decide, by decide, by decide⟩
  obtain ⟨t, newEntity, hreplaced, hone⟩ :=
    updateOne_apply (zoneToRename_renames [twice]) (client_answers [twice]) hw
  rw [RenamesExactly, update_returns_iff
    (P := RowsRenamed 1 "example.com." "example.org." (zoneToRename [twice]).records) hone,
    rowsRenamed_iff hw hreplaced]
  rintro ⟨hrecognised, -⟩
  have hfirst := hrecognised twice List.mem_cons_self rfl rfl "example.com." (by decide)
  exact absurd hfirst (by decide)

end Instances

end Renaming

end Iasql.Route53
