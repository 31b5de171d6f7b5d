import Iasql.AuditLog
import Iasql.Calculus.Dict
import Iasql.Connect
import Iasql.DefaultRegion
import Iasql.Metadata

namespace Iasql.Upgrade

open AwsAccount OrderedMap

section Databases

structure AwsCredentials where
  accessKeyId : String
  secretAccessKey : String
  sessionToken : Option String := none
deriving DecidableEq

-- what the upgrade reads of a database; the modules by their names without the version
structure Contents where
  auditLog : List IasqlAuditLog := []
  modules : List String
  credentials : List AwsCredentials := []
  regions : List AwsRegion := []
deriving DecidableEq

-- what connect leaves in a new database
def fresh : Contents := { modules := ["iasql_platform", "iasql_functions"] }

-- the hexadecimal part of a generated name
abbrev DbId := String

def pgName (d : DbId) : String := genDbId true d ""

def oldName (d : DbId) : String := "OLD" ++ pgName d

def newName (d : DbId) : String := "NEW" ++ pgName d

-- refused when the first is not there or the second is
def renameDatabase (a b : String) (databases : Dict String Contents) :
    Option (Dict String Contents) :=
  match databases.get? a, databases.get? b with
  | some c, none => some ((databases.eraseAll [a]).set b c)
  | _, _ => none

-- a record of iasql_database with the first of its users
structure Row where
  db : MetadataRepo.IasqlDatabase
  user : Option String
deriving DecidableEq

end Databases

section Calls

-- the statements that part 3 runs on the new database
inductive Fill where
  | install (mod : String)
  | begin
  | insertCredentials (creds : AwsCredentials)
  | commit
  | enable (region : String)
  | setDefault (region : String)
deriving DecidableEq

def defaultRegion (old : Contents) : String :=
  ((old.regions.find? (·.isDefault)).map (·.region)).getD "us-east-1"

-- the token of temporary credentials is not taken over
def accountFills (old : Contents) : List Fill :=
  if old.modules.contains "aws_account" then
    match old.credentials.head? with
    | none => []
    | some creds =>
      [.install "aws_account", .begin, .insertCredentials { creds with sessionToken := none },
        .commit] ++ (old.regions.filter (·.isEnabled)).map (fun r => .enable r.region) ++
        [.setDefault (defaultRegion old)]
  else []

def fills (old : Contents) : List Fill := accountFills old ++ old.modules.map .install

-- what a statement writes besides: the log as it leaves it, the modules that come with the one
-- asked for, the regions that AWS lists
structure Written where
  auditLog : List IasqlAuditLog
  modules : List String := []
  regions : List String := []

-- regions of the cloud that the database has no row for
def missingRegions (listed : List String) (regions : List AwsRegion) : List AwsRegion :=
  (listed.dedup.filter fun r => !regions.any (·.region == r)).map fun r => { region := r }

def Fill.exec (w : Written) (x : Contents) : Fill → Except String Contents
  | .install mod =>
    .ok { x with
      auditLog := w.auditLog
      modules := x.modules ++ (w.modules ++ [mod]).filter fun m => !x.modules.contains m }
  | .begin => .ok { x with auditLog := w.auditLog }
  | .insertCredentials creds =>
    .ok { x with auditLog := w.auditLog, credentials := x.credentials ++ [creds] }
  | .commit =>
    .ok { x with
      auditLog := w.auditLog
      regions := x.regions ++ missingRegions w.regions x.regions }
  | .enable region =>
    (update ((x.regions.filter (·.region = region)).map fun r => { r with isEnabled := true })
      x.regions).map fun regions => { x with auditLog := w.auditLog, regions }
  | .setDefault region =>
    (update ((x.regions.filter (·.region = region)).map fun r => { r with isDefault := true })
      x.regions).map fun regions => { x with auditLog := w.auditLog, regions }

-- the columns that the upgrade copies
def copied (l : IasqlAuditLog) : IasqlAuditLog := { l with id := 0, transactionId := none }

def Contents.lines (x : Contents) : List IasqlAuditLog := x.auditLog.map copied

def insertLine (l : IasqlAuditLog) (x : Contents) : Contents :=
  { x with auditLog := saveLog x.auditLog { l with transactionId := none } }

end Calls

section Machine

inductive Stage where
  | waiting
  | filling (calls : List Fill)
  | dropping
  | saving
  | joining
  | finished
deriving DecidableEq

-- a timer of part 3 with what its closure holds
structure Poller where
  row : Row
  old : Contents
  stage : Stage

-- upgrade.sh (checking, moving), upgrade (upgrading to copying), then the forked workers
inductive Phase where
  | down
  | checking (names : List DbId)
  | moving (d : DbId) (names : List DbId)
  | upgrading (dbs : List (DbId × Row))
  | creating (d : DbId) (row : Row) (old : Contents) (lines : List IasqlAuditLog)
      (dbs : List (DbId × Row))
  | copying (d : DbId) (row : Row) (old : Contents) (lines : List IasqlAuditLog)
      (dbs : List (DbId × Row))
  | serving

-- a worker removes the records without a database before it listens
inductive Child where
  | forked
  | cleaning (missing : List DbId)
  | listening

structure State (ι : Type) where
  databases : Dict String Contents
  rows : Dict DbId Row
  phase : Phase
  pollers : Dict DbId Poller
  child : ι → Child

inductive Action (ι : Type) where
  | boot
  | restore (renamed : Bool)
  | setAside (renamed : Bool)
  | start
  | skip
  | readOld (lines : List IasqlAuditLog)
  | createNew
  | insertLine
  | insertFails
  | loaded
  | startPrimary
  | childReads (i : ι)
  | childRemoves (i : ι) (d : DbId)
  | listen (i : ι)
  | health (i : ι) (d : DbId)
  | fill (d : DbId) (w : Written)
  | fillFails (d : DbId)
  | rename (d : DbId)
  | dropOld (d : DbId)
  | saveDatabase (d : DbId)
  | saveUser (d : DbId)
  -- a user works in the database
  | work (d : DbId) (x : Contents)
  | crash

namespace State

variable {ι : Type} (s : State ι)

def setStage (d : DbId) (p : Poller) (stage : Stage) : Dict DbId Poller :=
  s.pollers.set d { p with stage }

-- the poller whose turn it is; there is none before the engine serves
def polled (d : DbId) : Option Poller :=
  match s.phase with
  | .serving => s.pollers.get? d
  | _ => none

def missing : List DbId := s.rows.keys.filter fun d => (s.databases.get? (pgName d)).isNone

-- SELECT datname FROM pg_database WHERE datname LIKE 'OLD%'
def dbsToUpgrade : List String := s.databases.keys.filter fun n => "OLD".toList.isPrefixOf n.toList

def aliasTaken (row : Row) : Bool :=
  s.rows.entries.any fun p => p.2.user == row.user && p.2.db.dbAlias == row.db.dbAlias

end State

def start {ι : Type} (s : State ι) : State ι :=
  if s.dbsToUpgrade = [] then { s with phase := .serving, pollers := ∅, child := fun _ => .forked }
  else { s with phase := .upgrading s.rows.entries, pollers := ∅ }

-- PostgreSQL refuses to rename a database that a session is in: renamed is false then
def renameIf (renamed : Bool) (a b : String) (databases : Dict String Contents) :
    Dict String Contents :=
  if renamed then (renameDatabase a b databases).getD databases else databases

variable {ι : Type} [DecidableEq ι]

def step (s : State ι) : Action ι → Option (State ι)
  | .boot =>
    match s.phase with
    | .down => some { s with phase := .checking s.rows.keys, pollers := ∅ }
    | _ => none
  | .restore renamed =>
    match s.phase with
    | .checking (d :: names) => some { s with
        phase := .moving d names
        databases := renameIf renamed (oldName d) (pgName d) s.databases }
    | _ => none
  -- DROP DATABSE, which comes before, is no statement
  | .setAside renamed =>
    match s.phase with
    | .moving d names => some { s with
        phase := .checking names
        databases := renameIf renamed (pgName d) (oldName d) s.databases }
    | _ => none
  | .start =>
    match s.phase with
    | .checking [] => some (Upgrade.start s)
    | _ => none
  -- a database without a user
  | .skip =>
    match s.phase with
    | .upgrading ((_, row) :: dbs) =>
      if row.user = none then some { s with phase := .upgrading dbs } else none
    | _ => none
  | .readOld lines =>
    match s.phase with
    | .upgrading ((d, row) :: dbs) =>
      match s.databases.get? (oldName d) with
      | some old =>
        if row.user ≠ none ∧ lines.Perm old.auditLog then some { s with
          phase := .creating d row old lines dbs
          databases := s.databases.eraseAll [newName d] }
        else none
      | none => none
    | _ => none
  | .createNew =>
    match s.phase with
    | .creating d row old lines dbs => some { s with
        phase := .copying d row old lines dbs
        databases := s.databases.set (newName d) fresh }
    | _ => none
  | .insertLine =>
    match s.phase with
    | .copying d row old (l :: lines) dbs =>
      match s.databases.get? (newName d) with
      | some x => some { s with
          phase := .copying d row old lines dbs
          databases := s.databases.set (newName d) (insertLine l x) }
      | none => none
    | _ => none
  | .insertFails =>
    match s.phase with
    | .copying d row old (_ :: _) dbs => some { s with phase := .copying d row old [] dbs }
    | _ => none
  | .loaded =>
    match s.phase with
    | .copying d row old [] dbs => some { s with
        phase := .upgrading dbs
        pollers := s.pollers.set d { row, old, stage := .waiting } }
    | _ => none
  | .startPrimary =>
    match s.phase with
    | .upgrading [] => some { s with phase := .serving, child := fun _ => .forked }
    | _ => none
  | .childReads i =>
    match s.phase, s.child i with
    | .serving, .forked => some { s with
        child := Function.update s.child i (.cleaning s.missing) }
    | _, _ => none
  | .childRemoves i d =>
    match s.phase, s.child i with
    | .serving, .cleaning (e :: missing) =>
      if e = d then some { s with
        rows := s.rows.eraseAll [d]
        child := Function.update s.child i (.cleaning missing) }
      else none
    | _, _ => none
  | .listen i =>
    match s.child i with
    | .cleaning [] => some { s with child := Function.update s.child i .listening }
    | _ => none
  | .health i d =>
    match s.polled d, s.child i with
    | some p, .listening =>
      if p.stage = .waiting then some { s with
        pollers := s.setStage d p (.filling (fills p.old)) }
      else none
    | _, _ => none
  | .fill d w =>
    match s.polled d, s.databases.get? (newName d) with
    | some p, some x =>
      match p.stage with
      | .filling (call :: calls) =>
        match call.exec w x with
        | .ok x' =>
          if x.lines <+: x'.lines then some { s with
            pollers := s.setStage d p (.filling calls)
            databases := s.databases.set (newName d) x' }
          else none
        | .error _ => none
      | _ => none
    | _, _ => none
  | .fillFails d =>
    match s.polled d with
    | some p =>
      match p.stage with
      | .filling (_ :: calls) => some { s with pollers := s.setStage d p (.filling calls) }
      | _ => none
    | none => none
  | .rename d =>
    match s.polled d, renameDatabase (newName d) (pgName d) s.databases with
    | some p, some databases =>
      if p.stage = .filling [] then some { s with pollers := s.setStage d p .dropping, databases }
      else none
    | _, _ => none
  | .dropOld d =>
    match s.polled d with
    | some p =>
      if p.stage = .dropping then some { s with
        pollers := s.setStage d p .saving
        databases := s.databases.eraseAll [oldName d] }
      else none
    | none => none
  | .saveDatabase d =>
    match s.polled d with
    | some p =>
      if p.stage = .saving ∧ s.aliasTaken p.row = false then some { s with
        pollers := s.setStage d p .joining
        rows := s.rows.set d { p.row with user := (s.rows.get? d).bind (·.user) } }
      else none
    | none => none
  | .saveUser d =>
    match s.polled d with
    | some p =>
      if p.stage = .joining then some { s with
        pollers := s.setStage d p .finished
        rows := s.rows.set d p.row }
      else none
    | none => none
  | .work d x' =>
    match s.databases.get? (pgName d) with
    | some x =>
      if x.lines <+: x'.lines then some { s with databases := s.databases.set (pgName d) x' }
      else none
    | none => none
  | .crash => some { s with phase := .down, pollers := ∅ }

end Machine

end Iasql.Upgrade
