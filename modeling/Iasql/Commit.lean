import Iasql.Reconcile

namespace Iasql

open Program Prog

section Log

variable {W E : Type} (env : Env W E)

-- without a connection orm?.save does nothing
def saveThrough (orm : Option Nat) (f : List IasqlAuditLog → List IasqlAuditLog) :
    Prog (Engine W E) Thrown Unit :=
  if orm.isSome then writeLog env f else return ()

def insertLog (orm : Option Nat) (changeType : AuditLogChangeType)
    (transactionId message : Option String) : Prog (Engine W E) Thrown IasqlAuditLog := do
  let ts ← newDate env
  let row := newLog env.cfg changeType ts transactionId message
  saveThrough env orm fun log => saveLog log row
  return row

def insertErrorLog (orm : Option Nat) (err : String) (transactionId : Option String) :
    Prog (Engine W E) Thrown Unit := do
  let ts ← newDate env
  saveThrough env orm fun log => saveLog log (newErrorLog env.cfg ts err transactionId)

def recordsSince (orm : Option Nat) (changeType : AuditLogChangeType)
    (transactionId : Option String) : Prog (Engine W E) Thrown Unit :=
  saveThrough env orm fun log =>
    updateIasqlRecordsSince env.cfg env.planner log changeType transactionId

def failIfCommitRunning (force : Bool) : Prog (Engine W E) Thrown Unit := do
  let isRunning ← readLog env (isCommitRunning env.cfg env.planner)
  if !force && isRunning then
    Prog.fail (.error "Another execution is in process. Please try again later.")
  else return ()

end Log

section Revert

variable {W E : Type} [JsRecord E] (env : Env W E) (fuel : Nat)

def catalogOf (mods : List (Module W E)) : Catalog where
  mapperEntities t := (indexModsByTable mods t).map fun mod => mod.mappers.map Mapper.metadata
  entity := env.entityMetadata
  awsResolveSupport := env.awsResolveSupport
  snakeCase := env.snakeCase

def runInverseQueries : List Statement → Prog (Engine W E) Thrown Unit :=
  Prog.each fun q => do
    emit (.inverseQuery q)
    let _ ← (onStore (env.query q)).attempt
    return ()

def applyInverseQueries (inverseQueries : List Statement) (installedModules : List (Module W E)) :
    Prog (Engine W E) Thrown Unit := do
  runInverseQueries env inverseQueries
  let _ ← apply env fuel installedModules true false []
  return ()

def inverseQueriesOf (installedModules : List (Module W E)) :
    Option (List IasqlAuditLog) → Prog (Engine W E) Thrown (List Statement)
  | none => Prog.fail (.error "No open transaction")
  | some changeLogs => do
    let cat := catalogOf env installedModules
    onStore (env.recreateEntities changeLogs)
    if tablesKnown cat changeLogs then
      match recreateQueries cat {} true false 0 changeLogs with
      | some queries => return queries
      | none => diverge
    else Prog.fail (.error "TypeError")

def findInverseQueries (installedModules : List (Module W E)) :
    Prog (Engine W E) Thrown (List Statement) :=
  readLog env (getChangeLogsSinceLastBegin env.planner) >>= inverseQueriesOf env installedModules

def closeRevert (currentTransactionId : Option String) : Prog (Engine W E) Thrown Unit := do
  let orm ← Prog.reads fun s => s.ctx.orm
  recordsSince env orm .startRevert currentTransactionId
  let _ ← insertLog env orm .endRevert currentTransactionId none
  return ()

def revert (installedModules : List (Module W E)) (currentTransactionId : Option String) :
    Prog (Engine W E) Thrown Unit := do
  let orm ← Prog.reads fun s => s.ctx.orm
  let _ ← insertLog env orm .startRevert currentTransactionId none
  Prog.lastly
    (do
      let inverseQueries ← findInverseQueries env installedModules
      applyInverseQueries env fuel inverseQueries installedModules)
    (closeRevert env currentTransactionId)

end Revert

section Commit

variable {W E : Type} [JsRecord E] (env : Env W E) (fuel : Nat)

-- the value of a let that a catch block may have assigned
def isErr (e : Option Thrown) : Bool := e.elim false Thrown.truthy

def notNullish (e : Option Thrown) : Option Thrown := e.filter fun x => !x.isNullish

structure Setup (W E : Type) where
  changesToCommit : List IasqlAuditLog
  hasChanges : Bool
  modulesWithChangesSorted : List (Module W E)
  installedModulesSorted : List (Module W E)

def sorted (mods : List (Option (Module W E))) (names : List String) :
    Prog (Engine W E) Thrown (List (Module W E)) :=
  match sortModules mods names with
  | some ms => return ms
  | none => diverge

omit [JsRecord E] in
theorem sorted_some {mods : List (Option (Module W E))} {names : List String}
    {s t : Engine W E} {out : List (Module W E)} (h : sorted mods names s = (.returned out, t)) :
    sortModules mods names = some out := by
  unfold sorted at h
  cases hs : sortModules mods names with
  | none =>
    rw [hs] at h
    cases h
  | some ms =>
    rw [hs] at h
    cases h
    rfl

def insertCommitMessage (orm : Option Nat) (tx commitMessage : Option String) :
    Prog (Engine W E) Thrown Unit :=
  match nonEmpty commitMessage with
  | some message => do
    let _ ← insertLog env orm .setCommitMessage tx (some message)
    return ()
  | none => return ()

def beginLog (dryRun : Bool) (commitMessage : Option String) :
    Prog (Engine W E) Thrown IasqlAuditLog := do
  let currentTransactionId ← readLog env (getCurrentTransactionId env.planner)
  Prog.writes fun s => { s with currentTransactionId }
  let orm ← Prog.reads fun s => s.orm
  insertCommitMessage env orm currentTransactionId commitMessage
  let newStartCommit ← insertLog env orm (if dryRun then .previewStartCommit else .startCommit)
    currentTransactionId none
  modifyCtx fun ctx =>
    if dryRun then { ctx with previewStartCommit := some newStartCommit }
    else { ctx with startCommit := some newStartCommit }
  return newStartCommit

def findChanges (newStartCommit : IasqlAuditLog) :
    Prog (Engine W E) Thrown (List IasqlAuditLog) := do
  let previousStartCommit ← readLog env fun log =>
    getPreviousStartCommit env.planner log newStartCommit.ts
  let changesToCommit ← readLog env fun log =>
    getChangesToCommit env.cfg env.planner log newStartCommit previousStartCommit
  let (orm, tx) ← Prog.reads fun s => (s.orm, s.currentTransactionId)
  saveThrough env orm fun log => associateTransaction log changesToCommit tx
  return changesToCommit

def setUp (versionString : String) (importedModules : List (Module W E)) (dryRun : Bool)
    (commitMessage : Option String) : Prog (Engine W E) Thrown (Setup W E) := do
  let newStartCommit ← beginLog env dryRun commitMessage
  let changesToCommit ← findChanges env newStartCommit
  let names ← findInstalledModules env
  let installedModules := importedModules.filter fun mod => names.contains mod.fullName
  let modulesWithChanges := getModulesWithChanges importedModules installedModules names
    (tablesOf changesToCommit) versionString
  let modulesWithChangesSorted ← sorted modulesWithChanges names
  let installedModulesSorted ← sorted (installedModules.map some) names
  return { changesToCommit, hasChanges := !modulesWithChanges.isEmpty, modulesWithChangesSorted,
           installedModulesSorted }

def applyChanged (st : Setup W E) (force dryRun : Bool) :
    Prog (Engine W E) Thrown (Option Plan) :=
  if st.hasChanges then do
    let plan ← apply env fuel st.modulesWithChangesSorted force dryRun st.changesToCommit
    return (if dryRun then some plan else none)
  else return none

def applyAll (st : Setup W E) (force dryRun : Bool) (applyErr : Option Thrown) :
    Prog (Engine W E) Thrown (Option Thrown) :=
  if isErr applyErr then do
    match ← (apply env fuel st.installedModulesSorted force dryRun []).attempt with
    | .ok _ => return none
    | .error e => return some e
  else return applyErr

def revertOn (st : Setup W E) (applyErr : Option Thrown) :
    Prog (Engine W E) Thrown (Option Thrown) :=
  if isErr applyErr then do
    let tx ← Prog.reads fun s => s.currentTransactionId
    match ← (revert env fuel st.installedModulesSorted tx).attempt with
    | .ok _ => return none
    | .error e => return some e
  else return none

def conclude (syncRes : Except Thrown Plan) (revertErr applyErr : Option Thrown) :
    Prog (Engine W E) Thrown Plan :=
  let syncErr := match syncRes with | .ok _ => none | .error e => some e
  if isErr syncErr || isErr revertErr || isErr applyErr then
    let errMessage := mergeErrorMessages ([syncErr, revertErr, applyErr].filterMap id)
    match ((notNullish syncErr).or (notNullish revertErr)).or (notNullish applyErr) with
    | some err => Prog.fail (err.withMessage errMessage)
    | none => Prog.fail (.error errMessage)
  else match syncRes with
    | .ok plan => return plan
    | .error _ => return { iasqlPlanVersion := 0, rows := [] }

def laterPhases (st : Setup W E) (force dryRun : Bool) (applyErr : Option Thrown) :
    Prog (Engine W E) Thrown Plan := do
  let applyErr ← applyAll env fuel st force dryRun applyErr
  let revertErr ← revertOn env fuel st applyErr
  let syncRes ← (sync env fuel st.installedModulesSorted force dryRun).attempt
  conclude syncRes revertErr applyErr

def afterFirst (st : Setup W E) (force dryRun : Bool) :
    Except Thrown (Option Plan) → Prog (Engine W E) Thrown Plan
  | .ok (some plan) => return plan
  | .ok none => laterPhases env fuel st force dryRun none
  | .error e => laterPhases env fuel st force dryRun (some e)

def phases (st : Setup W E) (force dryRun : Bool) : Prog (Engine W E) Thrown Plan := do
  let first ← (applyChanged env fuel st force dryRun).attempt
  afterFirst env fuel st force dryRun first

def entry (force : Bool) : Prog (Engine W E) Thrown (String × List (Module W E)) := do
  throwIfUpgrading env force
  let versionString ← onStore env.versionString
  let importedModules ← getImportedModules env force versionString
  return (versionString, importedModules)

def chooseOrm : Option Nat → Prog (Engine W E) Thrown Nat
  | some orm => return orm
  | none => onStore env.createConn

def takeOrm (force : Bool) (ormOpt : Option Nat) : Prog (Engine W E) Thrown Unit := do
  let orm ← chooseOrm env ormOpt
  Prog.writes fun s => { s with orm := some orm, ctx := { s.ctx with orm := some orm } }
  failIfCommitRunning env force

def rethrowLogged {α : Type} : Except Thrown α → Prog (Engine W E) Thrown α
  | .ok a => return a
  | .error e => do
    let (orm, tx) ← Prog.reads fun s => (s.orm, s.currentTransactionId)
    insertErrorLog env orm (logErrSentry e) tx
    Prog.fail e

def caught {α : Type} (body : Prog (Engine W E) Thrown α) : Prog (Engine W E) Thrown α :=
  body.attempt >>= rethrowLogged env

def releaseOrm (orm ormOpt : Option Nat) : Prog (Engine W E) Thrown Unit :=
  if orm = ormOpt then return () else (onStore (env.dropConn orm)).detached

def closing (startType endType : AuditLogChangeType) (ormOpt parentOrm : Option Nat) :
    Prog (Engine W E) Thrown Unit := do
  let (orm, tx) ← Prog.reads fun s => (s.orm, s.currentTransactionId)
  recordsSince env orm startType tx
  let _ ← insertLog env orm endType tx none
  releaseOrm env orm ormOpt
  modifyCtx fun ctx => if parentOrm.isSome then { ctx with orm := parentOrm } else ctx

-- the try, catch and finally that commit and rollback share
def guarded {α : Type} (startType endType : AuditLogChangeType) (ormOpt : Option Nat)
    (body : Prog (Engine W E) Thrown α) : Prog (Engine W E) Thrown α := do
  let parentOrm ← Prog.reads fun s => s.ctx.orm
  Prog.writes fun s => { s with orm := none, currentTransactionId := none }
  (caught env body).lastly (closing env startType endType ormOpt parentOrm)

def startUp (dryRun force : Bool) (ormOpt : Option Nat) (commitMessage : Option String)
    (versionString : String) (importedModules : List (Module W E)) :
    Prog (Engine W E) Thrown (Setup W E) := do
  takeOrm env force ormOpt
  setUp env versionString importedModules dryRun commitMessage

def commitBody (dryRun force : Bool) (ormOpt : Option Nat) (commitMessage : Option String)
    (versionString : String) (importedModules : List (Module W E)) :
    Prog (Engine W E) Thrown Plan := do
  let st ← startUp env dryRun force ormOpt commitMessage versionString importedModules
  Prog.writes fun s => { s with crupdes := {} }
  phases env fuel st force dryRun

def commit (dryRun force : Bool) (ormOpt : Option Nat) (commitMessage : Option String) :
    Prog (Engine W E) Thrown Plan := do
  let start ← entry env force
  guarded env (if dryRun then .previewStartCommit else .startCommit)
    (if dryRun then .previewEndCommit else .endCommit) ormOpt
    (commitBody env fuel dryRun force ormOpt commitMessage start.1 start.2)

def rollbackBody (force : Bool) (ormOpt : Option Nat) (importedModules : List (Module W E)) :
    Prog (Engine W E) Thrown Plan := do
  takeOrm env force ormOpt
  let newStartCommit ← beginLog env false none
  let _ ← findChanges env newStartCommit
  let names ← findInstalledModules env
  let installedModules := importedModules.filter fun mod => names.contains mod.fullName
  let installedModulesSorted ← sorted (installedModules.map some) names
  Prog.writes fun s => { s with crupdes := {} }
  sync env fuel installedModulesSorted force false

def rollback (force : Bool) (ormOpt : Option Nat) : Prog (Engine W E) Thrown Plan := do
  let start ← entry env force
  guarded env .startCommit .endCommit ormOpt (rollbackBody env fuel force ormOpt start.2)

end Commit

end Iasql
