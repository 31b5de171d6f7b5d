import Iasql.Calculus.Halting
import Iasql.StoreFrame

namespace Iasql

open Program Prog OrderedMap

-- the orm while rows are looked up and entities are put together again
structure Lookups (W : Type) where
  camelCase : String → String
  findOne : String → Columns → Prog (Store W) Thrown (Option Columns)
  entityMetadata : String → Option EntityMetadata
  -- the three calls of recreateRelation
  recreateRelations : EntityMetadata → Columns → Prog (Store W) Thrown Columns

section Recreation

variable {W E : Type} (lookups : Lookups W)

def propertyKey (metadata : EntityMetadata) (k : String) : String :=
  match metadata.ownColumns.find? fun oc => oc.databaseName == k with
  | some col => if col.referencedColumn.isNone then col.propertyName else lookups.camelCase k
  | none => lookups.camelCase k

-- Object.entries of what the record does not carry is a TypeError
def recreateEntity (metadata : EntityMetadata) :
    Option Columns → Prog (Store W) Thrown (Option Columns)
  | none => Prog.fail (.error "TypeError")
  | some originalChange => do
    let originalE ← lookups.recreateRelations metadata
      (ofList (originalChange.map fun (k, v) => (propertyKey lookups metadata k, v)))
    return (if originalE.isEmpty then none else some originalE)

def metadataOf (tableName : String) (entityMetadata : EntityMetadata) : Option EntityMetadata :=
  if tableName = entityMetadata.tableName then some entityMetadata
  else entityMetadata.ownRelations.findSome? fun r =>
    (lookups.entityMetadata r.inverseEntity).filter (·.tableName == tableName)

abbrev RecreatedEntities := String → List (Option Columns)

def recreateRecord (cl : IasqlAuditLog) : List (Mapper W E) → RecreatedEntities →
    Prog (Store W) Thrown RecreatedEntities
  | [], recreated => pure recreated
  | m :: ms, recreated =>
    match metadataOf lookups cl.tableName m.metadata with
    | none => recreateRecord cl ms recreated
    | some metadata => do
      let recreatedE ← recreateEntity lookups metadata (cl.change.change.or cl.change.original)
      recreateRecord cl ms
        (Function.update recreated metadata.name (recreated metadata.name ++ [recreatedE]))

def recreateEntitiesFromChangelogs (modsIndexedByTable : String → Option (Module W E)) :
    List IasqlAuditLog → RecreatedEntities → Prog (Store W) Thrown RecreatedEntities
  | [], recreated => pure recreated
  | cl :: cls, recreated =>
    match modsIndexedByTable cl.tableName with
    | none => Prog.fail (.error "TypeError")
    | some mod => do
      let recreated ← recreateRecord lookups cl (entityMappers mod) recreated
      recreateEntitiesFromChangelogs modsIndexedByTable cls recreated

def joinTableCols (metadata : EntityMetadata) : List (String × List (String × String)) :=
  ofList (metadata.ownRelations.filterMap fun r => (nonEmpty r.joinTableName).map fun name =>
    (name, r.joinColumns.map fun jc =>
      (jc.databaseName, (jc.referencedColumn.map Prod.fst).getD "")))

def findChanged (metadata : EntityMetadata) (column : String → Option String) :
    Option Columns → Prog (Store W) Thrown (List Columns)
  | none => Prog.fail (.error "TypeError")
  | some changeObj => do
    let changedE ← lookups.findOne metadata.name (ofList (changeObj.filterMap fun (k, v) =>
      (column k).map fun c => (lookups.camelCase c, v)))
    return changedE.toList

def primaryColumn (metadata : EntityMetadata) (k : String) : Option String :=
  if (metadata.ownColumns.filter (·.isPrimary)).any fun pc => pc.databaseName == k then some k
  else none

def originalEntity (metadata : EntityMetadata) (original : Option Columns) :
    Prog (Store W) Thrown (List Columns) := do
  let originalE ← recreateEntity lookups metadata original
  return originalE.toList

def originalIfAny (metadata : EntityMetadata) (original : Option Columns) :
    Prog (Store W) Thrown (List Columns) :=
  if original.isSome then originalEntity lookups metadata original else return []

-- what one pass of the inner loop of getChangesByEntity adds for a mapper's entity
def changedEntities (metadata : EntityMetadata) (c : IasqlAuditLog) :
    Prog (Store W) Thrown (List Columns) :=
  if metadata.tableName = c.tableName then
    match c.changeType with
    | .insert | .update => do
      let changedE ← findChanged lookups metadata (primaryColumn metadata) c.change.change
      let originalE ← originalIfAny lookups metadata c.change.original
      return changedE ++ originalE
    | .delete => originalEntity lookups metadata c.change.original
    | _ => return []
  else
    match find c.tableName (joinTableCols metadata) with
    | none => return []
    | some cols =>
      findChanged lookups metadata (fun k => (cols.find? fun jc => jc.1 == k).map Prod.snd)
        (if c.changeType = .delete then c.change.original else c.change.change)

end Recreation

section Rows

-- what the audit trigger writes for each kind of change
def TriggerRow (row : IasqlAuditLog) : Prop :=
  match row.changeType with
  | .insert => row.change.change.isSome = true
  | .update => row.change.original.isSome = true ∧ row.change.change.isSome = true
  | .delete => row.change.original.isSome = true
  | _ => False

variable {W E : Type} {lookups : Lookups W} {Q : Thrown → Prop} {row : IasqlAuditLog}

theorem TriggerRow.isRowChange (h : TriggerRow row) : row.changeType.isRowChange = true := by
  unfold TriggerRow at h
  cases hkind : row.changeType <;> simp only [hkind] at h <;> rfl

theorem TriggerRow.either (h : TriggerRow row) : (row.change.change.or row.change.original).isSome = true := by
  unfold TriggerRow at h
  cases hkind : row.changeType <;> simp only [hkind] at h <;> simp [h]

theorem throwsOnly_recreateEntity
    (hrelations : ∀ metadata e, ThrowsOnly Q (lookups.recreateRelations metadata e))
    (metadata : EntityMetadata) {original : Option Columns} (h : original.isSome = true) :
    ThrowsOnly Q (recreateEntity lookups metadata original) := by
  obtain ⟨originalChange, rfl⟩ := Option.isSome_iff_exists.mp h
  exact throwsOnly_bind (hrelations metadata _) fun _ => throwsOnly_pure _

theorem throwsOnly_recreateRecord
    (hrelations : ∀ metadata e, ThrowsOnly Q (lookups.recreateRelations metadata e))
    (h : (row.change.change.or row.change.original).isSome = true) (ms : List (Mapper W E))
    (recreated : RecreatedEntities) : ThrowsOnly Q (recreateRecord lookups row ms recreated) := by
  induction ms generalizing recreated with
  | nil => exact throwsOnly_pure _
  | cons m ms ih =>
    rw [recreateRecord]
    split
    · exact ih _
    · next metadata _ =>
      exact throwsOnly_bind (throwsOnly_recreateEntity hrelations metadata h) fun _ => ih _

end Rows

section Found

variable {W E : Type} {Q : Thrown → Prop} {changes : List IasqlAuditLog} {mods : List (Module W E)}

-- every change has a module in the index of its tables
def Found (changes : List IasqlAuditLog) (mods : List (Module W E)) : Prop :=
  ∀ c ∈ changes, ∃ mod, indexModsByTable mods c.tableName = some mod

theorem indexModsByTable_isSome {table : String} {mod : Module W E} (hmod : mod ∈ mods)
    (htable : table ∈ mod.tables) : ∃ mod', indexModsByTable mods table = some mod' := by
  rw [← Option.isSome_iff_exists, indexModsByTable, List.getLast?_isSome]
  exact List.ne_nil_of_mem (List.mem_filter.mpr ⟨hmod, by simpa using htable⟩)

theorem throwsOnly_changesOfRecord {ms : List (Mapper W E)} {c : IasqlAuditLog}
    (h : ∀ m ∈ ms, ThrowsOnly Q (m.changedEntities c)) (changesByEntity : ChangeSet E) :
    ThrowsOnly Q (changesOfRecord c ms changesByEntity) := by
  induction ms generalizing changesByEntity with
  | nil => exact throwsOnly_pure _
  | cons m ms ih =>
    exact throwsOnly_bind (h m (by simp)) fun _ => ih (fun x hx => h x (by simp [hx])) _

theorem throwsOnly_getChangesByEntity (hfound : Found changes mods)
    (h : ∀ mod ∈ mods, ∀ m ∈ mod.mappers, ∀ c ∈ changes, ThrowsOnly Q (m.changedEntities c)) :
    ThrowsOnly Q (getChangesByEntity changes (indexModsByTable mods)) := by
  unfold getChangesByEntity
  generalize (fun _ => [] : ChangeSet E) = changesByEntity
  induction changes generalizing changesByEntity with
  | nil => exact throwsOnly_pure _
  | cons c cs ih =>
    obtain ⟨mod, hmod⟩ := hfound c (by simp)
    rw [changesOfRecords, hmod]
    refine throwsOnly_bind (throwsOnly_changesOfRecord (fun m hm => ?_) _) fun _ => ih
      (fun c' hc => hfound c' (by simp [hc])) (fun mod' hmod' m hm c' hc =>
        h mod' hmod' m hm c' (by simp [hc])) _
    exact h mod (indexModsByTable_mem hmod).1 m (entityMappers_subset mod hm) c (by simp)

theorem throwsOnly_recreateEntitiesFromChangelogs {lookups : Lookups W}
    (hrelations : ∀ metadata e, ThrowsOnly Q (lookups.recreateRelations metadata e))
    (hfound : Found changes mods) (hwritten : ∀ c ∈ changes, TriggerRow c)
    (recreated : RecreatedEntities) :
    ThrowsOnly Q
      (recreateEntitiesFromChangelogs lookups (indexModsByTable mods) changes recreated) := by
  induction changes generalizing recreated with
  | nil => exact throwsOnly_pure _
  | cons c cs ih =>
    obtain ⟨mod, hmod⟩ := hfound c (by simp)
    rw [recreateEntitiesFromChangelogs, hmod]
    exact throwsOnly_bind
      (throwsOnly_recreateRecord hrelations (hwritten c (by simp)).either _ recreated) fun _ =>
        ih (fun c' hc => hfound c' (by simp [hc])) (fun c' hc => hwritten c' (by simp [hc])) _

end Found

end Iasql
