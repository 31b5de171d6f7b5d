import Iasql.Changes
import Mathlib.Algebra.GroupWithZero.Defs
import Mathlib.Algebra.Ring.Int.Defs

namespace Iasql

open Program Prog

structure Direction (W E : Type) where
  truth : Dest
  target : Dest
  handles : Mapper W E → Bool
  replaces : Mapper W E → E × E → Bool
  -- what becomes of the truth's entity before its twin (database, cloud) is updated
  prepare : E × E → E → E
  halted : String

def EntityDiff.only {E : Type} (diff : EntityDiff E) : Dest → List E
  | .db => diff.entitiesInDbOnly
  | .cloud => diff.entitiesInAwsOnly

def Dest.pick {E : Type} : Dest → E × E → E
  | .db, p => p.1
  | .cloud, p => p.2

def Direction.updated {W E : Type} (d : Direction W E) (ec : E × E) : E :=
  d.prepare ec (d.truth.pick ec)

inductive Filter (E : Type) where
  | only (changes : ChangeSet E)
  | except (changes : ChangeSet E)

namespace Filter

variable {W E : Type}

def touches (changes : ChangeSet E) (m : Mapper W E) (e : E) : Bool :=
  (changes m.entityName).any fun re => m.entityId e == m.entityId re

def passes (flt : Filter E) (m : Mapper W E) (e : E) : Bool :=
  match flt with
  | only changes => touches changes m e
  | except changes => !touches changes m e

def restrict (flt : Filter E) (m : Mapper W E) (diff : EntityDiff E) : EntityDiff E where
  entitiesInDbOnly := diff.entitiesInDbOnly.filter (flt.passes m)
  entitiesInAwsOnly := diff.entitiesInAwsOnly.filter (flt.passes m)
  entitiesChanged := diff.entitiesChanged.filter fun p => flt.passes m p.1

end Filter

structure DiffRecord (W E : Type) where
  mapper : Mapper W E
  diff : EntityDiff E

structure Loop where
  failureCount : Option Int := some (-1)
  dbCount : Int := -1
  cloudCount : Int := -1
  bothCount : Int := -1
  spinCount : Nat := 0
  ranFullUpdate : Bool := false
deriving DecidableEq

structure Plan where
  iasqlPlanVersion : Nat := 3
  rows : List PlanRow
deriving DecidableEq

section Round

variable {W E : Type} [JsRecord E] (env : Env W E) (force : Bool) (d : Direction W E)
  (mappers : List (Mapper W E))

def recordsOf (flt : Filter E) (ctx : Context W E) : List (DiffRecord W E) :=
  mappers.map fun m =>
    { mapper := m
      diff := flt.restrict m (findDiff (ctx.entities .db m.entityName)
        (ctx.entities .cloud m.entityName) m.entityId m.equals) }

def recordCount (records : List (DiffRecord W E)) : Int × Int × Int :=
  ((records.map fun r => (r.diff.entitiesInDbOnly.length : Int)).sum,
   (records.map fun r => (r.diff.entitiesInAwsOnly.length : Int)).sum,
   (records.map fun r => (r.diff.entitiesChanged.length : Int)).sum)

def spin (l : Loop) (records : List (DiffRecord W E)) : Loop :=
  let (nextDbCount, nextCloudCount, nextBothCount) := recordCount records
  if l.dbCount = nextDbCount ∧ l.cloudCount = nextCloudCount ∧ l.bothCount = nextBothCount then
    { l with spinCount := l.spinCount + 1 }
  else { l with dbCount := nextDbCount, cloudCount := nextCloudCount, bothCount := nextBothCount,
                spinCount := 0 }

def planRecord (crupdes : CrupdeOperations) (r : DiffRecord W E) : CrupdeOperations :=
  let (replaces, updates) := r.diff.entitiesChanged.partition (d.replaces r.mapper)
  { toCreate := planIfAny crupdes.toCreate r.mapper (r.diff.only d.truth)
    toDelete := planIfAny crupdes.toDelete r.mapper (r.diff.only d.target)
    toUpdate := planIfAny crupdes.toUpdate r.mapper (updates.map d.truth.pick)
    toReplace := planIfAny crupdes.toReplace r.mapper (replaces.map d.truth.pick) }

def replaceLast {α : Type} (p : α → Bool) (f : α → α) : List α → List α
  | [] => []
  | x :: xs =>
    if xs.any p then x :: replaceLast p f xs else if p x then f x :: xs else x :: xs

def overwrite (m : Mapper W E) (dest : Dest) (e : E) (f : E → E) (ctx : Context W E) :
    Context W E :=
  ctx.putEntries dest m.entityName
    (replaceLast (fun p => m.entityId p.2 == m.entityId e) (fun p => (p.1, f p.2))
      (ctx.memo dest m.entityName))

def assignAll (out : List E) (e : E) : E := out.foldl JsRecord.assign e

def creations (r : DiffRecord W E) : List (Prog (Engine W E) Thrown Unit) :=
  (r.diff.only d.truth).map fun e => do
    emit (.create d.target r.mapper e)
    let out ← onCtx (r.mapper.create d.target e)
    modifyCtx (overwrite r.mapper d.truth e (assignAll out))

def updates (r : DiffRecord W E) : List (Prog (Engine W E) Thrown Unit) :=
  r.diff.entitiesChanged.map fun ec => do
    modifyCtx (overwrite r.mapper d.truth (d.truth.pick ec) (d.prepare ec))
    emit (.update d.target r.mapper (d.updated ec))
    let out ← onCtx (r.mapper.update d.target (d.updated ec))
    modifyCtx (overwrite r.mapper d.truth (d.truth.pick ec) (assignAll out))

def deletions (r : DiffRecord W E) : List (Prog (Engine W E) Thrown Unit) :=
  (r.diff.only d.target).map fun e => do
    emit (.delete d.target r.mapper e)
    onCtx (r.mapper.delete d.target e)

def generators (records : List (DiffRecord W E)) : List (Prog (Engine W E) Thrown Unit) :=
  (records.flatMap fun r => creations d r ++ updates d r) ++ records.reverse.flatMap (deletions d)

def flush (dest : Dest) : Prog (Engine W E) Thrown Unit := do
  emit (.flush dest)
  modifyCtx fun ctx => ctx.setMemo (fun _ => []) dest

def readOne (dest : Dest) (m : Mapper W E) : Prog (Engine W E) Thrown Unit := do
  onCtx (m.read dest)
  emit (.read dest m)

-- a read of the database brings the changes made after the commit started
def readSide (dest : Dest) (known : ChangeSet E) : Prog (Engine W E) Thrown (ChangeSet E) := do
  flush dest
  lazyLoader (mappers.map (readOne dest))
  match dest with
  | .db => do
    let changes ← getChangesAfterCommitStartedByEntity env force
    emit (.changesAfterCommit changes)
    return changes
  | .cloud => return known

def chooseFilter (changesToCommit : List IasqlAuditLog)
    (modsIndexedByTable : String → Option (Module W E)) (changesAfterCommit : ChangeSet E) :
    Prog (Engine W E) Thrown (Filter E) :=
  if changesToCommit.isEmpty then return .except changesAfterCommit
  else do
    let changes ← onStore (getChangesByEntity changesToCommit modsIndexedByTable)
    emit (.changesToCommit changes)
    return .only changes

def compareSides (flt : Filter E) : Prog (Engine W E) Thrown (List (DiffRecord W E)) := do
  let records ← Prog.reads fun s => recordsOf mappers flt s.ctx
  Prog.writes fun s => { s with crupdes := records.foldl (planRecord d) s.crupdes }
  return records

def finish (oldOrm : Option Nat) : Prog (Engine W E) Thrown Unit := do
  let orm ← Prog.reads fun s => s.ctx.orm
  onStore (env.dropConn orm)
  modifyCtx fun ctx => { ctx with orm := oldOrm }

def currentPlan : Prog (Engine W E) Thrown Plan :=
  Prog.reads fun s => { rows := iasqlPlanV3 env.snakeCase s.crupdes }

def act (l : Loop) (records : List (DiffRecord W E)) :
    Prog (Engine W E) Thrown (Turn Loop Plan) := do
  let l := spin l records
  if l.spinCount = 4 then Prog.fail (.depError d.halted none none)
  else if (generators d records).isEmpty then return .leave l
  else do
    match ← (lazyLoader (generators d records)).attempt with
    | .ok _ => return .again { l with ranFullUpdate := true }
    | .error e =>
      if l.failureCount = e.generatorsToRunLength then Prog.fail e
      else return .leave { l with failureCount := e.generatorsToRunLength, ranFullUpdate := true }

end Round

section Loops

variable {W E : Type} [JsRecord E] (env : Env W E) (force : Bool) (d : Direction W E)
  (relevantModules : List (Module W E)) (dryRun : Bool) (changesToCommit : List IasqlAuditLog)

def handled : List (Mapper W E) := (relevantModules.flatMap Module.mappers).filter d.handles

def innerTurn (oldOrm : Option Nat) (known : ChangeSet E) (l : Loop) :
    Prog (Engine W E) Thrown (Turn Loop Plan) := do
  let changes ← readSide env force (handled d relevantModules) d.target known
  if (handled d relevantModules).isEmpty then do
    finish env oldOrm
    return .quit { rows := [] }
  else do
    let flt ← chooseFilter changesToCommit (indexModsByTable relevantModules) changes
    let records ← compareSides d (handled d relevantModules) flt
    if dryRun then do
      finish env oldOrm
      return .quit (← currentPlan env)
    else act d l records

def afterInner : Loop ⊕ Plan → Prog (Engine W E) Thrown (Turn Loop Plan)
  | .inl l => return (if l.ranFullUpdate then .again l else .leave l)
  | .inr plan => return .quit plan

def outerTurn (oldOrm : Option Nat) (fuel : Nat) (l : Loop) :
    Prog (Engine W E) Thrown (Turn Loop Plan) := do
  let known ← readSide env force (handled d relevantModules) d.truth fun _ => []
  let left ← doWhile (innerTurn env force d relevantModules dryRun changesToCommit oldOrm known) fuel
    { l with ranFullUpdate := false }
  afterInner left

def afterOuter (oldOrm : Option Nat) : Loop ⊕ Plan → Prog (Engine W E) Thrown Plan
  | .inl _ => do
    let output ← currentPlan env
    finish env oldOrm
    return output
  | .inr plan => return plan

def reconcile (fuel : Nat) : Prog (Engine W E) Thrown Plan := do
  let oldOrm ← Prog.reads fun s => s.ctx.orm
  let orm ← onStore env.createConn
  modifyCtx fun ctx => { ctx with orm := some orm }
  let left ← doWhile (outerTurn env force d relevantModules dryRun changesToCommit oldOrm fuel)
    fuel {}
  afterOuter env oldOrm left

end Loops

section Phases

variable {W E : Type} [JsRecord E] (env : Env W E)

def applyDirection : Direction W E where
  truth := .db
  target := .cloud
  handles m := m.source = .db
  replaces m ec := m.updateOrReplace ec.2 ec.1 ≠ .update
  prepare _ e := e
  halted := "Forward progress halted. All remaining DB changes failing to apply."

def syncDirection : Direction W E where
  truth := .cloud
  target := .db
  handles _ := true
  replaces _ _ := false
  prepare ec e := JsRecord.copyId ec.1 e
  halted := "Forward progress halted. All remaining Cloud changes failing to apply."

def apply (fuel : Nat) (relevantModules : List (Module W E)) (force dryRun : Bool)
    (changesToCommit : List IasqlAuditLog) : Prog (Engine W E) Thrown Plan :=
  reconcile env force applyDirection relevantModules dryRun changesToCommit fuel

def sync (fuel : Nat) (relevantModules : List (Module W E)) (force dryRun : Bool) :
    Prog (Engine W E) Thrown Plan :=
  reconcile env force syncDirection relevantModules dryRun [] fuel

end Phases

end Iasql
