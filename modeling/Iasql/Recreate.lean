import Iasql.AuditLog
import Iasql.Sql

namespace Iasql

-- the entities at the two ends of the relation a column belongs to
structure ColumnRelation where
  entity : String
  inverseEntity : String
deriving DecidableEq

structure ColumnMetadata where
  databaseName : String
  propertyName : String
  type : Option String := none
  isPrimary : Bool := false
  isGenerated : Bool := false
  isArray : Bool := false
  relation : Option ColumnRelation := none
  referencedColumn : Option (String × String) := none
deriving DecidableEq

structure RelationMetadata where
  joinTableName : Option String := none
  inverseEntity : String
  joinColumns : List ColumnMetadata := []
  inverseJoinColumns : List ColumnMetadata := []
deriving DecidableEq

structure EntityMetadata where
  name : String
  tableName : String
  ownColumns : List ColumnMetadata
  ownRelations : List RelationMetadata := []
  cloudIds : Option (List String) := none
deriving DecidableEq

-- the decorators register a class, while augmentValue looks its metadata object up
inductive ResolveKey where
  | target (entityName : String)
  | metadata (entityName : String)
deriving DecidableEq

structure Catalog where
  mapperEntities : String → Option (List EntityMetadata)
  entity : String → Option EntityMetadata
  awsResolveSupport : List (String × List String) := []
  snakeCase : String → String

inductive TableMetadata where
  | entity (e : EntityMetadata)
  | relation (r : RelationMetadata)

inductive AugmentedPayload where
  | value (v : JsVal)
  | subQuery (text : Literal)

structure AugmentedValue where
  isPrimary : Bool := false
  isAutogenerated : Bool := false
  key : String
  value : AugmentedPayload
  isJson : Bool := false
  type : Option String := none
  isArray : Bool := false
  awsResolveSupport : Bool := false

-- what orm.findOne gives for an entity, a key and a value, and the entities recreated
-- from the change logs
structure Lookup where
  findOne : String → String → JsVal → Option Columns := fun _ _ _ => none
  recreated : String → List Columns := fun _ => []

namespace Catalog

variable (cat : Catalog)

def getAwsResolveSupport : ResolveKey → List String
  | .target name => (OrderedMap.find name cat.awsResolveSupport).getD []
  | .metadata _ => []

def getTableMetadata (tableName : String) : Option TableMetadata :=
  let mappers := (cat.mapperEntities tableName).getD []
  let first := mappers.findSome? fun e =>
    if e.tableName = tableName then some (.entity e)
    else (e.ownRelations.find? fun r => r.joinTableName == some tableName).map .relation
  first.or <| mappers.findSome? fun e =>
    e.ownRelations.findSome? fun r =>
      (cat.entity r.inverseEntity).bind fun inv =>
        if inv.tableName = tableName then some (.entity inv) else none

end Catalog

def jsonTypes : List String := ["simple-json", "json", "jsonb"]

namespace AugmentedValue

def isArrayValue (a : AugmentedValue) : Bool :=
  match a.value with
  | .value v => v.isArray
  | .subQuery _ => false

def formatValue (a : AugmentedValue) : Literal :=
  match a.value with
  | .subQuery text => text
  | .value v =>
    if a.isArray then .array v a.type
    else if a.isJson && v.isArray then .stringified v
    else .quoted v

def isNull (a : AugmentedValue) : Bool :=
  match a.formatValue with
  | .quoted .null => true
  | _ => false

def comparison (a : AugmentedValue) : Comparison :=
  if a.isNull then .is else if a.isJson then .jsonbEquals else .equals

def assigned (a : AugmentedValue) : Literal :=
  if a.isJson && a.isArrayValue then .jsonb a.formatValue else a.formatValue

def compared (a : AugmentedValue) : Literal :=
  if a.isJson && !a.isArrayValue then .jsonbOnly a.formatValue
  else if a.isJson && a.isArrayValue then .jsonb a.formatValue
  else a.formatValue

def describe (a : AugmentedValue) (col : Option ColumnMetadata) : AugmentedValue :=
  let isJson := (col.bind ColumnMetadata.type).elim false (jsonTypes.contains ·)
  { a with
    isJson
    isArray := !isJson && col.elim false ColumnMetadata.isArray
    type := col.bind ColumnMetadata.type
    isPrimary := col.elim false ColumnMetadata.isPrimary
    isAutogenerated := col.elim false ColumnMetadata.isGenerated }

end AugmentedValue

def columnNamed (key : String) (cols : List ColumnMetadata) : Option ColumnMetadata :=
  (cols.filter (·.databaseName == key)).getLast?

def strictEquals : JsVal → JsVal → Bool
  | .arr _, _ | .obj _, _ => false
  | v, w => v == w

section Recreate

variable (cat : Catalog) (lk : Lookup) (shouldRecreateSubQueries : Bool)

def property (e : Columns) (name : String) : JsVal := (OrderedMap.find name e).getD .null

def subQueryOn (column table : String) (values : List AugmentedValue) : Literal :=
  let kept := values.filter fun v => !v.awsResolveSupport
  .subQuery column table
    (List.zipWith (fun v arg => (arg.key, v.comparison, arg.formatValue)) kept values)

abbrev SubQueries := String → String → JsVal → Option EntityMetadata → Option Literal

-- the value becomes a sub-query when its column belongs to a relation with that entity
def augmentReference (subQuery : SubQueries) (col : Option ColumnMetadata) (target : Option String)
    (value : JsVal) (payload : AugmentedPayload) : Option AugmentedPayload :=
  match shouldRecreateSubQueries, target with
  | true, some entityName =>
    let (dbKey, key) := (col.bind ColumnMetadata.referencedColumn).getD ("unknown_key", "unknownKey")
    (subQuery dbKey key value (cat.entity entityName)).map .subQuery
  | _, _ => some payload

def augmentWith (subQuery : SubQueries) (tableName key : String) (value : JsVal) :
    Option AugmentedValue :=
  if !value.truthy then some { key, value := .value value }
  else match cat.getTableMetadata tableName with
    | none => some { key, value := .value value }
    | some (.entity e) =>
      let col := columnNamed key e.ownColumns
      let resolve := (cat.getAwsResolveSupport (.metadata e.name)).any fun c => cat.snakeCase c == key
      (augmentReference cat shouldRecreateSubQueries subQuery col
          ((col.bind ColumnMetadata.relation).map (·.inverseEntity)) value (.value value)).map
        fun payload =>
          ({ key, value := payload, awsResolveSupport := resolve } : AugmentedValue).describe col
    | some (.relation r) =>
      let join := columnNamed key r.joinColumns
      let inverse := columnNamed key r.inverseJoinColumns
      (augmentReference cat shouldRecreateSubQueries subQuery join
          ((join.bind ColumnMetadata.relation).map (·.entity)) value (.value value)).bind
        fun owner =>
          (augmentReference cat shouldRecreateSubQueries subQuery inverse
              ((inverse.bind ColumnMetadata.relation).map (·.inverseEntity)) value owner).map
            fun payload => ({ key, value := payload } : AugmentedValue).describe inverse

def recreateSubQueryWith (augment : String → String → JsVal → Option AugmentedValue)
    (referencedDbKey referencedKey : String) (value : JsVal) :
    Option EntityMetadata → Option Literal
  | none => some .blank
  | some em =>
    match em.cloudIds with
    | none => some .blank
    | some cloudIds =>
      match (lk.findOne em.name referencedKey value).or
          ((lk.recreated em.name).find? fun re => strictEquals (property re referencedKey) value) with
      | none => some .relationNotFound
      | some e => do
        let values ← cloudIds.mapM fun cid => augment em.tableName (cat.snakeCase cid) (property e cid)
        if values.all AugmentedValue.isNull then
          let dbColumns := em.ownColumns.filter fun oc =>
            oc.relation.isNone && (property e oc.propertyName).truthy && !oc.isPrimary
          let values ← dbColumns.mapM fun oc =>
            augment em.tableName oc.databaseName (property e oc.propertyName)
          return subQueryOn referencedDbKey em.tableName values
        else return subQueryOn referencedDbKey em.tableName values

-- none: the chain of references is longer than the fuel
def recreateSubQuery : Nat → SubQueries
  | 0 => fun _ _ _ _ => none
  | fuel + 1 => recreateSubQueryWith cat lk
      (augmentWith cat shouldRecreateSubQueries (recreateSubQuery fuel))

def augmentValue (fuel : Nat) : String → String → JsVal → Option AugmentedValue :=
  augmentWith cat shouldRecreateSubQueries (recreateSubQuery cat lk shouldRecreateSubQueries fuel)

def augmentEntries (fuel : Nat) (tableName : String) (columns : Option Columns) :
    Option (List AugmentedValue) :=
  ((columns.getD []).filter fun (_, v) => v != .null).mapM fun (k, v) =>
    augmentValue cat lk shouldRecreateSubQueries fuel tableName k v

end Recreate

def assignments (es : List AugmentedValue) : List (String × Literal) :=
  es.map fun e => (e.key, e.assigned)

def conditions (es : List AugmentedValue) : Conds :=
  (es.filter fun e => !e.awsResolveSupport).map fun e => (e.key, e.comparison, e.compared)

def swapped (inverse : Bool) : AuditLogChangeType → AuditLogChangeType
  | .insert => if inverse then .delete else .insert
  | .delete => if inverse then .insert else .delete
  | t => t

def getFormattedQuery (tableName : String) (type : AuditLogChangeType) (inverse : Bool)
    (firstEntries secondEntries : List AugmentedValue) : Option Statement :=
  let firstValues := firstEntries.filter fun e => !e.isAutogenerated
  let secondValues := secondEntries.filter fun e => !e.isAutogenerated
  match swapped inverse type with
  | .insert => some (.insert tableName (assignments firstValues))
  | .delete => some (.delete tableName (conditions firstValues))
  | .update =>
    let (originalValues, updatedValues) :=
      if inverse then (secondValues, firstValues) else (firstValues, secondValues)
    some (.update tableName (assignments updatedValues) (conditions originalValues))
  | _ => none

section Queries

variable (cat : Catalog) (lk : Lookup) (inverse shouldRecreateSubQueries : Bool) (fuel : Nat)

def recreateQuery (cl : IasqlAuditLog) : Option (Option Statement) :=
  let augmented := augmentEntries cat lk shouldRecreateSubQueries fuel cl.tableName
  match cl.changeType with
  | .insert => do
    return getFormattedQuery cl.tableName .insert inverse (← augmented cl.change.change) []
  | .delete => do
    return getFormattedQuery cl.tableName .delete inverse (← augmented cl.change.original) []
  | .update => do
    return getFormattedQuery cl.tableName .update inverse (← augmented cl.change.original)
      (← augmented cl.change.change)
  | _ => some none

def recreateQueries : List IasqlAuditLog → Option (List Statement)
  | [] => some []
  | cl :: cls => do
    let query ← recreateQuery cat lk inverse shouldRecreateSubQueries fuel cl
    return query.toList ++ (← recreateQueries cls)

-- Object.values of the missing module of a table is a TypeError
def tablesKnown (changeLogs : List IasqlAuditLog) : Bool :=
  changeLogs.all fun cl => (cat.mapperEntities cl.tableName).isSome

end Queries

end Iasql
