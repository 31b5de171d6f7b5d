import Iasql.Calculus.Newest
import Iasql.Json

namespace Iasql

open Newest

inductive AuditLogChangeType where
  | insert | update | delete
  | startCommit | previewStartCommit | endCommit | previewEndCommit
  | openTransaction | closeTransaction
  | error
  | startRevert | endRevert
  | setCommitMessage
deriving DecidableEq

namespace AuditLogChangeType

def isCommitMarker : AuditLogChangeType → Bool
  | .startCommit | .previewStartCommit | .endCommit | .previewEndCommit => true
  | _ => false

def isStart : AuditLogChangeType → Bool
  | .startCommit | .previewStartCommit => true
  | _ => false

def isRowChange : AuditLogChangeType → Bool
  | .insert | .update | .delete => true
  | _ => false

def isTransactionMarker : AuditLogChangeType → Bool
  | .openTransaction | .closeTransaction => true
  | _ => false

theorem not_isCommitMarker_of_isRowChange {t : AuditLogChangeType} (h : t.isRowChange = true) :
    t.isCommitMarker = false := by cases t <;> simp_all [isRowChange, isCommitMarker]

end AuditLogChangeType

abbrev Columns := List (String × JsVal)

structure Change where
  original : Option Columns := none
  change : Option Columns := none
deriving DecidableEq

structure IasqlAuditLog where
  id : Nat := 0
  ts : Nat
  user : String
  tableName : String
  changeType : AuditLogChangeType
  change : Change := {}
  message : Option String := none
  transactionId : Option String := none
deriving DecidableEq

structure Config where
  dbUser : String
  version : String
deriving DecidableEq

abbrev LogPlanner := Planner IasqlAuditLog IasqlAuditLog.ts

def nonEmpty (s : Option String) : Option String := s.filter (· != "")

def nextId (log : List IasqlAuditLog) : Nat := (log.map (·.id)).foldl max 0 + 1

def saveLog (log : List IasqlAuditLog) (row : IasqlAuditLog) : List IasqlAuditLog :=
  log ++ [{ row with id := nextId log }]

-- the record built by insertLog before it is saved
def newLog (cfg : Config) (changeType : AuditLogChangeType) (ts : Nat)
    (transactionId message : Option String) : IasqlAuditLog :=
  { ts, user := cfg.dbUser, tableName := "iasql_audit_log", changeType,
    transactionId := nonEmpty transactionId, message := nonEmpty message }

-- the record built by insertErrorLog, which keeps an empty message
def newErrorLog (cfg : Config) (ts : Nat) (err : String) (transactionId : Option String) :
    IasqlAuditLog :=
  { ts, user := cfg.dbUser, tableName := "iasql_audit_log", changeType := .error,
    transactionId := nonEmpty transactionId, message := some err }

section Queries

variable (cfg : Config) (pl : LogPlanner) (log : List IasqlAuditLog)

def isCommitRunning : Bool :=
  match pl.findOne (fun l => l.changeType.isCommitMarker && l.user != cfg.dbUser) log with
  | some l => l.changeType.isStart
  | none => false

def isOpenTransaction : Bool :=
  match pl.findOne (fun l => l.changeType.isTransactionMarker) log with
  | some l => l.changeType == .openTransaction
  | none => false

def getPreviousStartCommit (currentTs : Nat) : Option IasqlAuditLog :=
  pl.findOne (fun l => l.changeType == .startCommit && l.ts < currentTs) log

def inCommitWindow (newStartCommit : IasqlAuditLog)
    (previousStartCommit : Option IasqlAuditLog) (ts : Nat) : Bool :=
  match previousStartCommit with
  | some prev => prev.ts ≤ ts && ts ≤ newStartCommit.ts
  | none => ts < newStartCommit.ts

def getChangesToCommit (newStartCommit : IasqlAuditLog)
    (previousStartCommit : Option IasqlAuditLog) : List IasqlAuditLog :=
  pl.find (fun l => !l.changeType.isCommitMarker &&
    inCommitWindow newStartCommit previousStartCommit l.ts && l.user != cfg.dbUser) log

-- the query of getChangesAfterCommitStartedByEntity
def getChangesAfterCommit (startedAt : Option Nat) : List IasqlAuditLog :=
  pl.find (fun l => !l.changeType.isCommitMarker &&
    (match startedAt with | some ts => ts < l.ts | none => false) &&
    l.user != cfg.dbUser) log

def lastOpenTransaction : Option IasqlAuditLog :=
  pl.findOne (fun l => l.changeType == .openTransaction) log

def newestFirst (rows : List IasqlAuditLog) : List IasqlAuditLog :=
  rows.insertionSort fun a b => b.ts < a.ts ∨ (b.ts = a.ts ∧ b.id ≤ a.id)

def getChangeLogsSinceLastBegin : Option (List IasqlAuditLog) :=
  (lastOpenTransaction pl log).map fun transaction =>
    newestFirst (log.filter fun l => l.changeType.isRowChange && transaction.ts < l.ts)

def oldestFirst (rows : List IasqlAuditLog) : List IasqlAuditLog :=
  rows.insertionSort fun a b => a.ts < b.ts ∨ (a.ts = b.ts ∧ a.id ≤ b.id)

-- the latest transaction when no identifier is given
def transactionToGet (transactionId : Option String) : Option String :=
  (nonEmpty transactionId).or ((lastOpenTransaction pl log).bind (·.transactionId))

def getUserChangeLogsByTransaction (transactionId : Option String) : Option (List IasqlAuditLog) :=
  (transactionToGet pl log transactionId).map fun id =>
    oldestFirst (log.filter fun l => l.changeType.isRowChange && l.transactionId == some id &&
      l.user != cfg.dbUser)

def getCurrentTransactionId : Option String :=
  match lastOpenTransaction pl log with
  | some transaction => transaction.transactionId
  | none => some "<no-id-found>"

def associated (changes : List IasqlAuditLog) (transactionId : Option String)
    (l : IasqlAuditLog) : IasqlAuditLog :=
  if changes.any (·.id == l.id) then
    { l with transactionId := (nonEmpty transactionId).or l.transactionId }
  else l

def associateTransaction (changes : List IasqlAuditLog) (transactionId : Option String) :
    List IasqlAuditLog := log.map (associated changes transactionId)

def updateIasqlRecordsSince (changeType : AuditLogChangeType) (transactionId : Option String) :
    List IasqlAuditLog :=
  match pl.findOne (fun l => l.changeType == changeType) log with
  | none => log
  | some last =>
    associateTransaction log
      (pl.find (fun l => l.changeType.isRowChange && l.transactionId.isNone &&
        last.ts < l.ts && l.user == cfg.dbUser) log)
      transactionId

end Queries

section Lemmas

variable {cfg : Config} {pl : LogPlanner} {log : List IasqlAuditLog} {row : IasqlAuditLog}

@[simp] theorem newLog_changeType (t : AuditLogChangeType) (ts : Nat) (tx msg : Option String) :
    (newLog cfg t ts tx msg).changeType = t := rfl

@[simp] theorem newLog_user (t : AuditLogChangeType) (ts : Nat) (tx msg : Option String) :
    (newLog cfg t ts tx msg).user = cfg.dbUser := rfl

@[simp] theorem newLog_ts (t : AuditLogChangeType) (ts : Nat) (tx msg : Option String) :
    (newLog cfg t ts tx msg).ts = ts := rfl

section Associated

variable (changes : List IasqlAuditLog) (tx : Option String) (l : IasqlAuditLog)

@[simp] theorem associated_id : (associated changes tx l).id = l.id := by
  unfold associated
  split <;> rfl

@[simp] theorem associated_ts : (associated changes tx l).ts = l.ts := by
  unfold associated
  split <;> rfl

@[simp] theorem associated_user : (associated changes tx l).user = l.user := by
  unfold associated
  split <;> rfl

@[simp] theorem associated_tableName : (associated changes tx l).tableName = l.tableName := by
  unfold associated
  split <;> rfl

@[simp] theorem associated_change : (associated changes tx l).change = l.change := by
  unfold associated
  split <;> rfl

@[simp] theorem associated_changeType : (associated changes tx l).changeType = l.changeType := by
  unfold associated
  split <;> rfl

end Associated

theorem mem_getChangesToCommit {start : IasqlAuditLog} {prev : Option IasqlAuditLog} :
    row ∈ getChangesToCommit cfg pl log start prev ↔
      row ∈ log ∧ row.changeType.isCommitMarker = false ∧
        inCommitWindow start prev row.ts = true ∧ row.user ≠ cfg.dbUser := by
  simp [getChangesToCommit, and_assoc]

theorem mem_getChangesAfterCommit {startedAt : Nat} :
    row ∈ getChangesAfterCommit cfg pl log (some startedAt) ↔
      row ∈ log ∧ row.changeType.isCommitMarker = false ∧ startedAt < row.ts ∧
        row.user ≠ cfg.dbUser := by
  simp [getChangesAfterCommit, and_assoc]

theorem mem_getChangeLogsSinceLastBegin {rows : List IasqlAuditLog} {transaction : IasqlAuditLog}
    (ht : lastOpenTransaction pl log = some transaction)
    (h : getChangeLogsSinceLastBegin pl log = some rows) :
    row ∈ rows ↔ row ∈ log ∧ row.changeType.isRowChange = true ∧ transaction.ts < row.ts := by
  simp only [getChangeLogsSinceLastBegin, ht, Option.map_some, Option.some.injEq] at h
  subst h
  simp [newestFirst]

theorem previousStartCommit_spec {currentTs : Nat} {prev : IasqlAuditLog}
    (h : getPreviousStartCommit pl log currentTs = some prev) :
    prev ∈ log ∧ prev.changeType = .startCommit ∧ prev.ts < currentTs := by
  simpa [and_assoc] using pl.findOne_mem h

end Lemmas

end Iasql
