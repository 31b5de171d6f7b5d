import Iasql.Diff
import Iasql.LazyDep
import Iasql.Recreate

namespace Iasql

open Program OrderedMap

-- Object.keys(e2).forEach(k => (e[k] = e2[k])), e?.id?.toString() ?? '' and
-- if (ec.db.id) ec.cloud.id = ec.db.id
class JsRecord (E : Type) where
  assign : E → E → E
  idText : E → String
  copyId : E → E → E

structure Store (W : Type) where
  world : W
  auditLog : List IasqlAuditLog

abbrev Memo (E : Type) := String → List (String × E)

inductive Dest where
  | db | cloud
deriving DecidableEq

def Dest.name : Dest → String
  | .db => "db"
  | .cloud => "cloud"

structure Context (W E : Type) where
  store : Store W
  memoDb : Memo E := fun _ => []
  memoCloud : Memo E := fun _ => []
  orm : Option Nat := none
  startCommit : Option IasqlAuditLog := none
  previewStartCommit : Option IasqlAuditLog := none

namespace Context

variable {W E : Type}

def memo (ctx : Context W E) : Dest → Memo E
  | .db => ctx.memoDb
  | .cloud => ctx.memoCloud

def setMemo (ctx : Context W E) (memo : Memo E) : Dest → Context W E
  | .db => { ctx with memoDb := memo }
  | .cloud => { ctx with memoCloud := memo }

def putEntries (ctx : Context W E) (dest : Dest) (name : String) (entries : List (String × E)) :
    Context W E :=
  ctx.setMemo (Function.update (ctx.memo dest) name entries) dest

def entities (ctx : Context W E) (dest : Dest) (name : String) : List E :=
  (ctx.memo dest name).map Prod.snd

end Context

structure Crud (W E : Type) where
  createFn : E → Prog (Context W E) Thrown (List E)
  readFn : Prog (Context W E) Thrown (List E)
  updateFn : E → Prog (Context W E) Thrown (List E)
  deleteFn : E → Prog (Context W E) Thrown Unit

inductive UpdateKind where
  | update | replace
deriving DecidableEq

inductive Source where
  | db | cloud
deriving DecidableEq

structure Mapper (W E : Type) where
  metadata : EntityMetadata
  source : Source
  entityId : E → String
  equals : E → E → Bool
  updateOrReplace : E → E → UpdateKind
  db : Crud W E
  cloud : Crud W E
  -- the rows getChangesByEntity finds or recreates for one audit record of its table
  changedEntities : IasqlAuditLog → Prog (Store W) Thrown (List E)

namespace Mapper

variable {W E : Type} [JsRecord E]

def entityName (m : Mapper W E) : String := m.metadata.name

def crud (m : Mapper W E) : Dest → Crud W E
  | .db => m.db
  | .cloud => m.cloud

def memoOne (m : Mapper W E) (dest : Dest) (ctx : Context W E) (e : E) : Context W E :=
  let entries := ctx.memo dest m.entityName
  match find (m.entityId e) entries with
  | none => ctx.putEntries dest m.entityName (put (m.entityId e) e entries)
  | some realE =>
    ctx.putEntries dest m.entityName (put (m.entityId e) (JsRecord.assign realE e) entries)

def memo (m : Mapper W E) (dest : Dest) (ctx : Context W E) (es : List E) : Context W E :=
  es.foldl (m.memoOne dest) ctx

def unmemo (m : Mapper W E) (dest : Dest) (ctx : Context W E) (e : E) : Context W E :=
  ctx.putEntries dest m.entityName
    ((ctx.memo dest m.entityName).filter fun p => p.1 != m.entityId e)

-- err.message = ... on a nullish or primitive value is a TypeError
def rethrow {α : Type} (m : Mapper W E) (dest : Dest) (verb : String) (err : Thrown) :
    Prog (Context W E) Thrown α :=
  let described (msg : String) := s!"{m.entityName} {dest.name} {verb} error: {msg}"
  match err with
  | .error msg => Prog.fail (.error (described msg))
  | .depError msg gs fs => Prog.fail (.depError (described msg) gs fs)
  | _ => Prog.fail (.error "TypeError")

def create (m : Mapper W E) (dest : Dest) (e : E) : Prog (Context W E) Thrown (List E) := do
  Prog.writes fun ctx => m.memo dest ctx [e]
  match ← ((m.crud dest).createFn e).attempt with
  | .ok out => do
    Prog.writes fun ctx => m.memo dest ctx out
    return out
  | .error err => do
    Prog.writes fun ctx => m.unmemo dest ctx e
    m.rethrow dest "create" err

def read (m : Mapper W E) (dest : Dest) : Prog (Context W E) Thrown Unit := do
  match ← (m.crud dest).readFn.attempt with
  | .ok out => Prog.writes fun ctx => m.memo dest ctx out
  | .error err => m.rethrow dest "read" err

def update (m : Mapper W E) (dest : Dest) (e : E) : Prog (Context W E) Thrown (List E) := do
  match ← ((m.crud dest).updateFn e).attempt with
  | .ok out => do
    Prog.writes fun ctx => m.memo dest ctx out
    return out
  | .error err => m.rethrow dest "update" err

def delete (m : Mapper W E) (dest : Dest) (e : E) : Prog (Context W E) Thrown Unit := do
  match ← ((m.crud dest).deleteFn e).attempt with
  | .ok _ => Prog.writes fun ctx => m.unmemo dest ctx e
  | .error err => m.rethrow dest "delete" err

end Mapper

structure Module (W E : Type) where
  name : String
  version : String
  dependencies : List String
  tables : List String
  mappers : List (Mapper W E)

namespace Module

variable {W E : Type}

def fullName (m : Module W E) : String := m.name ++ "@" ++ m.version

end Module

abbrev Crupde := List (String × List (String × String))

structure CrupdeOperations where
  toCreate : Crupde := []
  toUpdate : Crupde := []
  toReplace : Crupde := []
  toDelete : Crupde := []
deriving DecidableEq

structure PlanRow where
  action : String
  tableName : String
  id : String
  description : String
deriving DecidableEq

def iasqlPlanV3 (snakeCase : String → String) (c : CrupdeOperations) : List PlanRow :=
  let rows (action : String) (crupde : Crupde) : List PlanRow :=
    crupde.flatMap fun (tbl, recs) =>
      recs.map fun (id, description) => { action, tableName := snakeCase tbl, id, description }
  rows "create" c.toCreate ++ rows "update" c.toUpdate ++ rows "replace" c.toReplace ++
    rows "delete" c.toDelete

section Plan

variable {W E : Type} [JsRecord E]

def updateCommitPlan (crupde : Crupde) (m : Mapper W E) (es : List E) : Crupde :=
  let rs := es.map fun e => (JsRecord.idText e, m.entityId e)
  let old := (find m.entityName crupde).getD []
  put m.entityName (rs.foldl (fun acc r => if r ∈ acc then acc else acc ++ [r]) old) crupde

def planIfAny (crupde : Crupde) (m : Mapper W E) (es : List E) : Crupde :=
  if es.isEmpty then crupde else updateCommitPlan crupde m es

end Plan

abbrev ChangeSet (E : Type) := String → List E

inductive Event (W E : Type) where
  | flush (dest : Dest)
  | read (dest : Dest) (mapper : Mapper W E)
  | changesToCommit (changes : ChangeSet E)
  | changesAfterCommit (changes : ChangeSet E)
  | create (dest : Dest) (mapper : Mapper W E) (e : E)
  | update (dest : Dest) (mapper : Mapper W E) (e : E)
  | delete (dest : Dest) (mapper : Mapper W E) (e : E)
  | inverseQuery (query : Statement)

def Event.isWrite {W E : Type} : Event W E → Bool
  | .create .. | .update .. | .delete .. | .inverseQuery .. => true
  | _ => false

structure Engine (W E : Type) where
  ctx : Context W E
  crupdes : CrupdeOperations := {}
  orm : Option Nat := none
  currentTransactionId : Option String := none
  trace : List (Event W E) := []

-- everything the engine reaches over a connection may fail and may find the store changed
structure Env (W E : Type) where
  cfg : Config
  planner : LogPlanner
  allModules : List (Module W E)
  snakeCase : String → String
  newDate : Store W → Nat × Store W
  createConn : Prog (Store W) Thrown Nat
  dropConn : Option Nat → Prog (Store W) Thrown Unit
  roundTrip : Prog (Store W) Thrown Unit
  upgrading : Prog (Store W) Thrown Bool
  versionString : Prog (Store W) Thrown String
  installedModules : Store W → List String
  entityMetadata : String → Option EntityMetadata
  awsResolveSupport : List (String × List String)
  recreateEntities : List IasqlAuditLog → Prog (Store W) Thrown Unit
  query : Statement → Prog (Store W) Thrown Unit

-- every round trip succeeds, and the clock advances with the log
def Env.reliable {W E : Type} (cfg : Config) (allModules : List (Module W E)) : Env W E where
  cfg
  planner := Newest.Planner.stable IasqlAuditLog.ts
  allModules
  snakeCase := id
  newDate st := (100 + st.auditLog.length, st)
  createConn := pure 1
  dropConn _ := pure ()
  roundTrip := pure ()
  upgrading := pure false
  versionString := pure cfg.version
  installedModules _ := allModules.map Module.fullName
  entityMetadata _ := none
  awsResolveSupport := []
  recreateEntities _ := pure ()
  query _ := pure ()

-- a side kept as a list in the world, for runs on concrete inputs
def Crud.ofList {W E : Type} [DecidableEq E] (get : W → List E) (set : List E → W → W) :
    Crud W E where
  createFn e := do
    Prog.writes fun ctx =>
      { ctx with store := { ctx.store with world := set (get ctx.store.world ++ [e]) ctx.store.world } }
    return [e]
  readFn := Prog.reads fun ctx => get ctx.store.world
  updateFn e := pure [e]
  deleteFn e := Prog.writes fun ctx =>
    { ctx with store := { ctx.store with
        world := set ((get ctx.store.world).filter (· ≠ e)) ctx.store.world } }

instance : JsRecord String := ⟨fun _ e => e, id, fun _ e => e⟩

def vpcMapper : Mapper (List String × List String) String where
  metadata := { name := "Vpc", tableName := "vpc",
                ownColumns := [{ databaseName := "name", propertyName := "name" }] }
  source := .db
  entityId := id
  equals _ _ := true
  updateOrReplace _ _ := .update
  db := Crud.ofList Prod.fst fun rows w => (rows, w.2)
  cloud := Crud.ofList Prod.snd fun rows w => (w.1, rows)
  changedEntities c := pure ((c.change.change.getD []).filterMap fun (_, v) =>
    match v with
    | .str s => some s
    | _ => none)

def vpcModule (m : Mapper (List String × List String) String) :
    Module (List String × List String) String where
  name := "aws_vpc"
  version := "0.0.1"
  dependencies := []
  tables := ["vpc"]
  mappers := [m]

def vpcEnv (m : Mapper (List String × List String) String) :
    Env (List String × List String) String :=
  Env.reliable { dbUser := "iasql", version := "0.0.1" } [vpcModule m]

def vpcEngine (dbRows cloudRows : List String) (auditLog : List IasqlAuditLog) :
    Engine (List String × List String) String where
  ctx := { store := { world := (dbRows, cloudRows), auditLog } }

section Primitives

variable {W E α : Type}

def onCtx (p : Prog (Context W E) Thrown α) : Prog (Engine W E) Thrown α :=
  p.within Engine.ctx fun c s => { s with ctx := c }

def onStore (p : Prog (Store W) Thrown α) : Prog (Engine W E) Thrown α :=
  onCtx (p.within Context.store fun st c => { c with store := st })

def emit (ev : Event W E) : Prog (Engine W E) Thrown Unit :=
  Prog.writes fun s => { s with trace := s.trace ++ [ev] }

def modifyCtx (f : Context W E → Context W E) : Prog (Engine W E) Thrown Unit :=
  Prog.writes fun s => { s with ctx := f s.ctx }

def readLog (env : Env W E) (f : List IasqlAuditLog → α) : Prog (Engine W E) Thrown α := do
  onStore env.roundTrip
  Prog.reads fun s => f s.ctx.store.auditLog

def writeLog (env : Env W E) (f : List IasqlAuditLog → List IasqlAuditLog) :
    Prog (Engine W E) Thrown Unit := do
  onStore env.roundTrip
  modifyCtx fun c => { c with store := { c.store with auditLog := f c.store.auditLog } }

def newDate (env : Env W E) : Prog (Engine W E) Thrown Nat :=
  onStore fun st => (.returned (env.newDate st).1, (env.newDate st).2)

end Primitives

end Iasql
