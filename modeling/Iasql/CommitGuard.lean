import Iasql.Calculus.Runs
import Iasql.Commit

namespace Iasql

open Program Prog Runs

inductive LogAction where
  -- the trigger of a module table, whoever changes the row
  | rowChange (row : IasqlAuditLog)
  | insertLog (changeType : AuditLogChangeType) (ts : Nat) (transactionId message : Option String)
  | insertErrorLog (ts : Nat) (err : String) (transactionId : Option String)
  | associate (changes : List IasqlAuditLog) (transactionId : Option String)
  | recordsSince (changeType : AuditLogChangeType) (transactionId : Option String)

section Logs

variable (cfg : Config) (pl : LogPlanner)

def logStep (log : List IasqlAuditLog) : LogAction → List IasqlAuditLog → Prop
  | .rowChange row, log' => row.changeType.isRowChange = true ∧ log' = saveLog log row
  | .insertLog t ts tx msg, log' => log' = saveLog log (newLog cfg t ts tx msg)
  | .insertErrorLog ts err tx, log' => log' = saveLog log (newErrorLog cfg ts err tx)
  | .associate changes tx, log' => log' = associateTransaction log changes tx
  | .recordsSince t tx, log' => log' = updateIasqlRecordsSince cfg pl log t tx

def ReachableLog : List IasqlAuditLog → Prop :=
  RunFrom (· = []) (logStep cfg pl) fun _ _ => True

-- every marker of a commit carries the engine's own user
def Stamped (log : List IasqlAuditLog) : Prop :=
  ∀ l ∈ log, l.changeType.isCommitMarker = true → l.user = cfg.dbUser

def CommitInProgress (log : List IasqlAuditLog) : Prop :=
  ∃ l, pl.findOne (fun l => l.changeType.isCommitMarker) log = some l ∧
    l.changeType.isStart = true

variable {cfg pl} {log : List IasqlAuditLog}

theorem stamped_saveLog {row : IasqlAuditLog} (h : Stamped cfg log)
    (hrow : row.changeType.isCommitMarker = true → row.user = cfg.dbUser) :
    Stamped cfg (saveLog log row) := by
  intro l hl hm
  rcases List.mem_append.mp hl with hl | hl
  · exact h l hl hm
  · rw [List.mem_singleton] at hl
    subst hl
    exact hrow hm

theorem stamped_associateTransaction (h : Stamped cfg log) (changes : List IasqlAuditLog)
    (tx : Option String) : Stamped cfg (associateTransaction log changes tx) := by
  intro l hl hm
  obtain ⟨l', hl', rfl⟩ := List.mem_map.mp hl
  rw [associated_user]
  exact h l' hl' (by simpa using hm)

theorem stamped_updateIasqlRecordsSince (h : Stamped cfg log) (t : AuditLogChangeType)
    (tx : Option String) : Stamped cfg (updateIasqlRecordsSince cfg pl log t tx) := by
  unfold updateIasqlRecordsSince
  split
  · exact h
  · exact stamped_associateTransaction h _ _

theorem stamped_step {a : LogAction} {log' : List IasqlAuditLog} (h : Stamped cfg log)
    (hstep : logStep cfg pl log a log') : Stamped cfg log' := by
  cases a with
  | rowChange row =>
    obtain ⟨hrow, rfl⟩ := hstep
    refine stamped_saveLog h fun hm => ?_
    rw [AuditLogChangeType.not_isCommitMarker_of_isRowChange hrow] at hm
    cases hm
  | insertLog t ts tx msg => subst hstep; exact stamped_saveLog h fun _ => rfl
  | insertErrorLog ts err tx => subst hstep; exact stamped_saveLog h fun _ => rfl
  | associate changes tx => subst hstep; exact stamped_associateTransaction h _ _
  | recordsSince t tx => subst hstep; exact stamped_updateIasqlRecordsSince h _ _

theorem stamped_of_reachable (h : ReachableLog cfg pl log) : Stamped cfg log :=
  h.invariant (fun _ h0 => by subst h0; simp [Stamped]) fun _ _ _ hi _ hs => stamped_step hi hs

theorem isCommitRunning_of_stamped (h : Stamped cfg log) : isCommitRunning cfg pl log = false := by
  have hnone : pl.findOne (fun l => l.changeType.isCommitMarker && l.user != cfg.dbUser) log =
      none := by
    rw [pl.findOne_eq_none]
    intro l hl
    cases hm : l.changeType.isCommitMarker with
    | false => rfl
    | true => simp [h l hl hm]
  unfold isCommitRunning
  rw [hnone]

end Logs

section Guard

variable {W E : Type} (env : Env W E)

-- the guard tells a commit in progress, and then stops a call that is not forced
structure Guards (log : List IasqlAuditLog) : Prop where
  detects : isCommitRunning env.cfg env.planner log = true ↔ CommitInProgress env.planner log
  stops : CommitInProgress env.planner log → ∀ s t : Engine W E,
    onStore env.roundTrip s = (.returned (), t) → t.ctx.store.auditLog = log →
      failIfCommitRunning env false s =
        (.thrown (.error "Another execution is in process. Please try again later."), t)

end Guard

section Unseen

def startedLog : List IasqlAuditLog :=
  saveLog [] (newLog { dbUser := "iasql", version := "0.0.1" } .startCommit 100 (some "tx") none)

theorem startedLog_reachable :
    ReachableLog (vpcEnv vpcMapper).cfg (vpcEnv vpcMapper).planner startedLog := by
  have hstep : logStep (vpcEnv vpcMapper).cfg (vpcEnv vpcMapper).planner []
      (.insertLog .startCommit 100 (some "tx") none) startedLog := rfl
  exact .next (.start rfl) trivial hstep

end Unseen

end Iasql
