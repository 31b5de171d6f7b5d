import Iasql.Changes

namespace Iasql

open Program Prog

structure Registry where
  iasqlModule : List String := []
  iasqlDependencies : List (String × String) := []
  iasqlTables : List (String × String) := []
deriving DecidableEq

-- the queryRunner works on its transaction's own view of the schema, the orm on the registry
structure Session (Schema : Type) where
  schema : Schema
  registry : Registry
  transaction : Option Schema := none
  ormCalls : Nat := 0

abbrev Hook (Schema : Type) := Option (Prog Schema Thrown Unit)

structure Migrations (Schema : Type) where
  beforeInstall : Hook Schema := none
  install : Hook Schema := none
  afterInstall : Hook Schema := none
  beforeRemove : Hook Schema := none
  remove : Hook Schema := none
  afterRemove : Hook Schema := none

structure InstallEnv (W E Schema : Type) where
  allModules : List (Module W E)
  version : String
  versionString : String
  upgrading : Bool := false
  baseTables : Schema → List String
  migrations : Module W E → Migrations Schema
  createTrigger : String → Prog Schema Thrown Unit
  dropTrigger : String → Prog Schema Thrown Unit
  closest : String → List String → String
  -- how the commit before an installation ends; it changes neither schema nor registry
  commit : Schema → Registry → Outcome Thrown Unit
  -- what the n-th call of the orm throws, and what COMMIT throws
  ormFault : Nat → Option Thrown
  commitFault : Schema → Option Thrown

def addIfNew (xs : List String) (x : String) : List String := if x ∈ xs then xs else xs ++ [x]

local instance lawfulPairs : LawfulBEq (String × String) := inferInstance

def addPairs (xs ys : List (String × String)) : List (String × String) :=
  ys.foldl (fun acc y => if y ∈ acc then acc else acc ++ [y]) xs

def batches {α : Type} (batchSize : Nat) (xs : List α) : List (List α) :=
  if xs.length > batchSize then xs.toChunks batchSize else [xs]

section Statements

variable {W E Schema α : Type} (env : InstallEnv W E Schema)

def ormCall (f : Registry → α × Registry) : Prog (Session Schema) Thrown α := do
  let calls ← Prog.reads fun s => s.ormCalls
  Prog.writes fun s => { s with ormCalls := calls + 1 }
  match env.ormFault calls with
  | some e => Prog.fail e
  | none => do
    let a ← Prog.reads fun s => (f s.registry).1
    Prog.writes fun s => { s with registry := (f s.registry).2 }
    return a

def findOneModule (name : String) : Prog (Session Schema) Thrown (List String) :=
  ormCall env fun r => (r.iasqlModule.filter (· == name), r)

def saveModule (name : String) (dependencies : List String) : Prog (Session Schema) Thrown Unit :=
  ormCall env fun r => ((), { r with
    iasqlModule := addIfNew r.iasqlModule name
    iasqlDependencies := r.iasqlDependencies.filter (·.1 != name) ++
      dependencies.map fun dep => (name, dep) })

def saveTables (rows : List (String × String)) : Prog (Session Schema) Thrown Unit :=
  Prog.each (fun batch => ormCall env fun r =>
    ((), { r with iasqlTables := addPairs r.iasqlTables batch })) (batches 100 rows)

def findTables (name : String) : Prog (Session Schema) Thrown (List (String × String)) :=
  ormCall env fun r => (r.iasqlTables.filter (·.1 == name), r)

def removeTables (rows : List (String × String)) : Prog (Session Schema) Thrown Unit :=
  ormCall env fun r => ((), { r with iasqlTables := r.iasqlTables.filter (· ∉ rows) })

-- the rows of iasql_dependencies are deleted with the module, on either side
def removeModule (name : String) : Prog (Session Schema) Thrown Unit :=
  ormCall env fun r => ((), { r with
    iasqlModule := r.iasqlModule.filter (· != name)
    iasqlDependencies := r.iasqlDependencies.filter fun d => d.1 != name && d.2 != name })

def query (statements : Prog Schema Thrown Unit) : Prog (Session Schema) Thrown Unit :=
  statements.within (fun s => s.transaction.getD s.schema) fun schema s =>
    { s with transaction := some schema }

def runHook : Hook Schema → Prog (Session Schema) Thrown Unit
  | some hook => query hook
  | none => return ()

def startTransaction : Prog (Session Schema) Thrown Unit :=
  Prog.writes fun s => { s with transaction := some s.schema }

def commitTransaction : Prog (Session Schema) Thrown Unit := do
  let schema ← Prog.reads fun s => s.transaction.getD s.schema
  match env.commitFault schema with
  | some e => Prog.fail e
  | none => Prog.writes fun s => { s with schema, transaction := none }

def rollbackTransaction : Prog (Session Schema) Thrown Unit :=
  Prog.writes fun s => { s with transaction := none }

def inTransaction (body : Prog (Session Schema) Thrown Unit) :
    Prog (Session Schema) Thrown Unit := do
  startTransaction
  match ← (body >>= fun _ => commitTransaction env).attempt with
  | .ok _ => return ()
  | .error e => do
    rollbackTransaction
    Prog.fail e

end Statements

section Install

variable {W E Schema : Type} (env : InstallEnv W E Schema)

def withVersion (m : String) : String := if m.toList.contains '@' then m else s!"{m}@{env.version}"

def findModule (name : String) : Option (Module W E) :=
  env.allModules.find? fun m => m.fullName == name

def coreModules : List String :=
  [s!"iasql_platform@{env.version}", s!"iasql_functions@{env.version}"]

def missingModules (moduleList : List String) : List String :=
  moduleList.filter fun n => (findModule env n).isNone

def notInstalled (registry : Registry) : List String :=
  let installedModules :=
    (env.allModules.filter fun m => registry.iasqlModule.contains m.fullName).map (·.name)
  ((env.allModules.filter fun m => !installedModules.contains m.name).filter fun m =>
    m.name != "" && m.version != "" && !(["iasql_platform", "iasql_functions"].contains m.name)).map
      (·.fullName)

def missingDeps (mods : List (Module W E)) (moduleList existingModules : List String) :
    List String :=
  dedup ((mods.flatMap fun m => m.dependencies.filter fun d =>
    !moduleList.contains d && !existingModules.contains d).filter fun m =>
      !(coreModules env).contains m)

-- every turn but the last adds a module that is not in the list, so the fuel is enough
def attachDependencies (existingModules : List String) : Nat → List (Module W E) → List String →
    Outcome Thrown (List (Module W E))
  | 0, _, _ => .diverged
  | fuel + 1, mods, moduleList =>
    let missing := missingDeps env mods moduleList existingModules
    if missing.isEmpty then .returned mods
    else match missing.mapM (findModule env) with
      | none => .thrown (.error "TypeError")
      | some extraMods => attachDependencies existingModules fuel (mods ++ extraMods)
          (moduleList ++ missing)

def tableCollisions (mods : List (Module W E)) (tables : List String) :
    List (String × List String) :=
  (mods.map fun md => (md.name, md.tables.filter tables.contains)).filter fun c => !c.2.isEmpty

def collisionMessage (collisions : List (String × List String)) : String :=
  "Collision with existing tables detected.\n" ++ "\n".intercalate (collisions.map fun c =>
    s!"Module {c.1} collides with tables: " ++ ", ".intercalate c.2)

def ofOutcome {α : Type} : Outcome Thrown α → Prog (Session Schema) Thrown α
  | .returned a => return a
  | .thrown e => Prog.fail e
  | .diverged => Prog.diverge

def throwWith : Option String → Prog (Session Schema) Thrown Unit
  | some message => Prog.fail (.error message)
  | none => return ()

def throwIf (b : Bool) (message : String) : Prog (Session Schema) Thrown Unit :=
  if b then Prog.fail (.error message) else return ()

def sortedOrder (mods : List (Module W E)) (existingModules : List String) :
    Prog (Session Schema) Thrown (List (Module W E)) :=
  match sortModules (mods.map some) existingModules with
  | some rootToLeafOrder => return rootToLeafOrder
  | none => Prog.diverge

-- the modules to install: not yet installed, with the dependencies that were not asked for
def findMods (registry : Registry) (moduleList : List String) (allModules force : Bool) :
    Prog (Session Schema) Thrown (List (Module W E)) := do
  throwIf (!force && env.upgrading) "The database is upgrading. Please try again later."
  let moduleList := if allModules then notInstalled env registry else moduleList
  throwIf (env.version != env.versionString) s!"Unsupported version {env.versionString}"
  let moduleList := (dedup moduleList).map (withVersion env)
  let missing := missingModules env moduleList
  throwIf (!missing.isEmpty) ("The following modules do not exist: " ++ ", ".intercalate missing ++
    ". Did you mean: " ++ ", ".intercalate (dedup (missing.map fun m =>
      env.closest m (env.allModules.map (·.fullName)))))
  ofOutcome (attachDependencies env registry.iasqlModule (env.allModules.length + 1)
    ((moduleList.filterMap (findModule env)).filter fun m =>
      !registry.iasqlModule.contains m.fullName) moduleList)

def orderMods (registry : Registry) (mods : List (Module W E)) :
    Prog (Session Schema) Thrown (List (Module W E)) := do
  let tables ← Prog.reads fun s => env.baseTables s.schema
  let collisions := tableCollisions mods tables
  throwIf (!collisions.isEmpty) (collisionMessage collisions)
  let committed ← Prog.reads fun s => env.commit s.schema registry
  ofOutcome committed
  sortedOrder mods registry.iasqlModule

def installOrder (moduleList : List String) (allModules force : Bool) :
    Prog (Session Schema) Thrown (List (Module W E)) := do
  let registry ← Prog.reads fun s => s.registry
  let mods ← findMods env registry moduleList allModules force
  if mods.isEmpty then return [] else orderMods env registry mods

def registerModule (md : Module W E) : Prog (Session Schema) Thrown Unit := do
  runHook (env.migrations md).beforeInstall
  runHook (env.migrations md).install
  runHook (env.migrations md).afterInstall
  let dependencies ← Prog.gather (findOneModule env) md.dependencies
  saveModule env md.fullName dependencies

def provideTables (md : Module W E) : Prog (Session Schema) Thrown Unit := do
  saveTables env (md.tables.map fun t => (md.fullName, t))
  Prog.each (fun table => query (env.createTrigger table)) md.tables

def installModule (md : Module W E) : Prog (Session Schema) Thrown Unit := do
  registerModule env md
  provideTables env md

-- up to the end of the mutation: the first cloud read of the new modules comes after it
def install (moduleList : List String) (allModules force : Bool) :
    Prog (Session Schema) Thrown Unit := do
  let rootToLeafOrder ← installOrder env moduleList allModules force
  if rootToLeafOrder.isEmpty then return ()
  else inTransaction env (Prog.each (installModule env) rootToLeafOrder)

end Install

section Uninstall

variable {W E Schema : Type} (env : InstallEnv W E Schema)

def leftoverError (existingModules : List String) (mod : String) :
    Option String :=
  match findModule env mod with
  | none => some s!"Somehow {mod} does not have a corresponding module defined"
  | some m => (m.dependencies.find? fun dep => !existingModules.contains dep).map fun dep =>
      s!"Somehow {dep} does not have a corresponding module defined"

def dependsOn (toUninstall : List String) (mod : String) : Bool :=
  (findModule env mod).any fun m => m.dependencies.any toUninstall.contains

def uninstallOrder (moduleList : List String) (force : Bool) :
    Prog (Session Schema) Thrown (List (Module W E)) := do
  throwIf (!force && env.upgrading) "The database is upgrading. Please try again later."
  let moduleList := (dedup moduleList).map (withVersion env)
  let missing := missingModules env moduleList
  throwIf (!missing.isEmpty) ("The following modules do not exist: " ++ ", ".intercalate missing)
  let existingModules ← Prog.reads fun s => s.registry.iasqlModule
  let mods := (moduleList.filterMap (findModule env)).filter fun m =>
    existingModules.contains m.fullName
  if mods.isEmpty then return []
  else do
    let toUninstall := mods.map (·.fullName)
    let remainingModules := existingModules.filter fun m => !toUninstall.contains m
    throwWith (remainingModules.findSome? (leftoverError env existingModules))
    throwWith ((remainingModules.find? (dependsOn env toUninstall)).map fun mod =>
      "Cannot uninstall " ++ ", ".intercalate moduleList ++
        s!" as {mod} still depends on one or more of them")
    let rootToLeafOrder ← sortedOrder mods remainingModules
    return rootToLeafOrder.reverse

def detachModule (md : Module W E) :
    Prog (Session Schema) Thrown (String × List (String × String)) := do
  Prog.each (fun table => query (env.dropTrigger table)) md.tables
  runHook (env.migrations md).beforeRemove
  runHook (env.migrations md).remove
  runHook (env.migrations md).afterRemove
  match ← findOneModule env md.fullName with
  | [] => Prog.fail (.error "TypeError")
  | e :: _ => do
    let mt ← findTables env e
    return (e, mt)

def uninstallModule (md : Module W E) : Prog (Session Schema) Thrown Unit := do
  let (e, mt) ← detachModule env md
  removeTables env mt
  removeModule env e

def uninstall (moduleList : List String) (force : Bool) : Prog (Session Schema) Thrown Unit := do
  let leafToRootOrder ← uninstallOrder env moduleList force
  if leafToRootOrder.isEmpty then return ()
  else inTransaction env (Prog.each (uninstallModule env) leafToRootOrder)

end Uninstall

end Iasql
