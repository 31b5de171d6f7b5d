import Iasql.Commit

namespace Iasql

open Program Prog

section Windows

variable (cfg : Config) (pl : LogPlanner) (start : IasqlAuditLog) (prev : Option IasqlAuditLog)

-- the rows the inverse queries are made from
def revertRows (log : List IasqlAuditLog) : List IasqlAuditLog :=
  (getChangeLogsSinceLastBegin pl log).getD []

def AfterOpen (log : List IasqlAuditLog) (row : IasqlAuditLog) : Prop :=
  ∃ transaction, lastOpenTransaction pl log = some transaction ∧ transaction.ts < row.ts

variable (log more : List IasqlAuditLog)

-- log is what the query for the changes to commit saw, more came up to the revert
def RevertsItsCommit : Prop :=
  ∀ row, row ∈ revertRows pl (log ++ more) ↔
    row ∈ getChangesToCommit cfg pl log start prev ∨
      row ∈ more ∧ row.changeType.isRowChange = true ∧ row.user = cfg.dbUser

structure WindowsAgree : Prop where
  onlyRows : ∀ row ∈ log, row.user ≠ cfg.dbUser → row.changeType.isCommitMarker = false →
    inCommitWindow start prev row.ts = true → row.changeType.isRowChange = true
  before : ∀ row ∈ log, row.user ≠ cfg.dbUser → row.changeType.isRowChange = true →
    (AfterOpen pl (log ++ more) row ↔ inCommitWindow start prev row.ts = true)
  concurrent : ∀ row ∈ more, row.user ≠ cfg.dbUser → row.changeType.isRowChange = true →
    ¬ AfterOpen pl (log ++ more) row
  engineBefore : ∀ row ∈ log, row.user = cfg.dbUser → row.changeType.isRowChange = true →
    ¬ AfterOpen pl (log ++ more) row
  engineDuring : ∀ row ∈ more, row.user = cfg.dbUser → row.changeType.isRowChange = true →
    AfterOpen pl (log ++ more) row

variable {cfg pl start prev log more} {row : IasqlAuditLog}

theorem mem_revertRows : row ∈ revertRows pl log ↔
    row ∈ log ∧ row.changeType.isRowChange = true ∧ AfterOpen pl log row := by
  unfold revertRows AfterOpen
  cases ht : lastOpenTransaction pl log with
  | none => simp [getChangeLogsSinceLastBegin, ht]
  | some transaction =>
    have hrows : getChangeLogsSinceLastBegin pl log = some (newestFirst
        (log.filter fun l => l.changeType.isRowChange && transaction.ts < l.ts)) := by
      simp [getChangeLogsSinceLastBegin, ht]
    rw [hrows, Option.getD_some, mem_getChangeLogsSinceLastBegin ht hrows]
    simp

end Windows

section Queries

end Queries

section Concurrent

def openedLog : List IasqlAuditLog := [
  { id := 1, ts := 1, user := "iasql", tableName := "iasql_audit_log",
    changeType := .openTransaction, transactionId := some "tx" },
  { id := 2, ts := 2, user := "owner", tableName := "vpc", changeType := .insert,
    change := { change := some [("name", .str "main")] } }]

def startedCommit : IasqlAuditLog :=
  { id := 3, ts := 3, user := "iasql", tableName := "iasql_audit_log",
    changeType := .startCommit, transactionId := some "tx" }

def concurrentInsert : IasqlAuditLog :=
  { id := 4, ts := 4, user := "other", tableName := "vpc", changeType := .insert,
    change := { change := some [("name", .str "spare")] } }

end Concurrent

end Iasql
