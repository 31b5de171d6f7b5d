import Iasql.Calculus.Runs
import Iasql.AuditLog

namespace Iasql

open Runs

inductive CommitPhase where
  | idle
  | started (start : IasqlAuditLog)
  | lookedBack (start : IasqlAuditLog) (prev : Option IasqlAuditLog)
  | found (start : IasqlAuditLog)
  | readDb (start : IasqlAuditLog) (visible : List IasqlAuditLog)
  | synced (start : IasqlAuditLog) (visible changesAfterCommit : List IasqlAuditLog)
deriving DecidableEq

namespace CommitPhase

def unqueried : CommitPhase → Option Nat
  | .started start | .lookedBack start _ => some start.ts
  | _ => none

def queried : CommitPhase → Option Nat
  | .found start | .readDb start _ | .synced start _ _ => some start.ts
  | _ => none

end CommitPhase

-- tried and queried are kept for the statement only: the changes of every commit so far and
-- the time of every START_COMMIT whose query for them has run
structure SharedLog where
  log : List IasqlAuditLog := []
  phase : CommitPhase := .idle
  tried : List IasqlAuditLog := []
  queried : List Nat := []
deriving DecidableEq

inductive SharedAction where
  -- the trigger stamps every row with the start of the transaction that commits here
  | userTransaction (startedAt : Nat) (rows : List IasqlAuditLog)
  | engineLog (row : IasqlAuditLog)
  | associate (changes : List IasqlAuditLog) (transactionId : Option String)
  | startCommit (ts : Nat) (transactionId : Option String)
  | getPreviousStartCommit
  | getChangesToCommit
  | readDb
  | getChangesAfterCommit
  | endCommit

section Steps

variable (cfg : Config) (pl : LogPlanner)

def isUserChange (row : IasqlAuditLog) : Bool :=
  row.changeType.isRowChange && row.user != cfg.dbUser

def saveTransaction (startedAt : Nat) (rows log : List IasqlAuditLog) : List IasqlAuditLog :=
  rows.foldl (fun log row => saveLog log { row with ts := startedAt }) log

def sharedStep (s : SharedLog) : SharedAction → Option SharedLog
  | .userTransaction startedAt rows =>
    if rows.all (isUserChange cfg) then
      some { s with log := saveTransaction startedAt rows s.log }
    else none
  | .engineLog row =>
    if row.user == cfg.dbUser && row.changeType != .startCommit then
      some { s with log := saveLog s.log row }
    else none
  | .associate changes tx => some { s with log := associateTransaction s.log changes tx }
  | .startCommit ts tx =>
    match s.phase with
    | .idle =>
      let start := newLog cfg .startCommit ts tx none
      some { s with log := saveLog s.log start, phase := .started start }
    | _ => none
  | .getPreviousStartCommit =>
    match s.phase with
    | .started start =>
      some { s with phase := .lookedBack start (getPreviousStartCommit pl s.log start.ts) }
    | _ => none
  | .getChangesToCommit =>
    match s.phase with
    | .lookedBack start prev =>
      some { s with
        phase := .found start
        tried := s.tried ++ getChangesToCommit cfg pl s.log start prev
        queried := start.ts :: s.queried }
    | _ => none
  | .readDb =>
    match s.phase with
    | .found start | .synced start _ _ => some { s with phase := .readDb start s.log }
    | _ => none
  | .getChangesAfterCommit =>
    match s.phase with
    | .readDb start visible =>
      some { s with
        phase := .synced start visible (getChangesAfterCommit cfg pl s.log (some start.ts)) }
    | _ => none
  | .endCommit => some { s with phase := .idle }

def SharedLog.Tried (s : SharedLog) (id : Nat) : Prop := ∃ c ∈ s.tried, c.id = id

def NothingLost (s : SharedLog) : Prop :=
  ∀ start visible after, s.phase = .synced start visible after →
    ∀ row ∈ visible, isUserChange cfg row = true →
      s.Tried row.id ∨ ∃ c ∈ after, c.id = row.id

-- no transaction becomes visible after a query that should have seen it, none started at the
-- very time of the first START_COMMIT, and no commit stops before its query
def inTime (s : SharedLog) : SharedAction → Bool
  | .userTransaction startedAt _ =>
    s.queried.all (· ≤ startedAt) && s.phase.queried.all (· < startedAt)
  | .getChangesToCommit =>
    match s.phase with
    | .lookedBack start none => s.log.all fun row => !isUserChange cfg row || row.ts != start.ts
    | _ => true
  | .endCommit => s.phase.unqueried.isNone
  | _ => true

end Steps

section Views

variable (cfg : Config)

def userChanges (log : List IasqlAuditLog) : List (Nat × Nat) :=
  (log.filter (isUserChange cfg)).map fun l => (l.id, l.ts)

def startTimes (log : List IasqlAuditLog) : List Nat :=
  (log.filter fun l => l.changeType == .startCommit).map (·.ts)

variable {cfg} {log : List IasqlAuditLog} {row : IasqlAuditLog}

theorem mem_userChanges {id ts : Nat} : (id, ts) ∈ userChanges cfg log ↔
    ∃ l ∈ log, isUserChange cfg l = true ∧ l.id = id ∧ l.ts = ts := by
  simp [userChanges, and_assoc]

theorem mem_startTimes {ts : Nat} : ts ∈ startTimes log ↔
    ∃ l ∈ log, l.changeType = .startCommit ∧ l.ts = ts := by
  simp [startTimes, and_assoc]

theorem userChanges_saveLog : userChanges cfg (saveLog log row) =
    userChanges cfg log ++ if isUserChange cfg row then [(nextId log, row.ts)] else [] := by
  have hrow : isUserChange cfg { row with id := nextId log } = isUserChange cfg row := rfl
  rw [userChanges, saveLog, List.filter_append, List.map_append, ← userChanges]
  cases h : isUserChange cfg row <;> simp [hrow, h]

theorem startTimes_saveLog : startTimes (saveLog log row) =
    startTimes log ++ if row.changeType = .startCommit then [row.ts] else [] := by
  rw [startTimes, saveLog, List.filter_append, List.map_append, ← startTimes]
  by_cases h : row.changeType = .startCommit <;> simp [h]

theorem userChanges_associateTransaction (changes : List IasqlAuditLog) (tx : Option String) :
    userChanges cfg (associateTransaction log changes tx) = userChanges cfg log := by
  have hkeep : isUserChange cfg ∘ associated changes tx = isUserChange cfg := by
    funext l
    simp [isUserChange]
  rw [userChanges, associateTransaction, List.filter_map, hkeep, List.map_map]
  simp [userChanges, Function.comp_def]

theorem startTimes_associateTransaction (changes : List IasqlAuditLog) (tx : Option String) :
    startTimes (associateTransaction log changes tx) = startTimes log := by
  rw [startTimes, associateTransaction, List.filter_map, List.map_map]
  simp [startTimes, Function.comp_def]

theorem saveTransaction_views {startedAt : Nat} {rows : List IasqlAuditLog}
    (h : ∀ row ∈ rows, isUserChange cfg row = true) :
    startTimes (saveTransaction startedAt rows log) = startTimes log ∧
      userChanges cfg log ⊆ userChanges cfg (saveTransaction startedAt rows log) ∧
      ∀ p ∈ userChanges cfg (saveTransaction startedAt rows log),
        p ∈ userChanges cfg log ∨ p.2 = startedAt := by
  induction rows generalizing log with
  | nil => exact ⟨rfl, fun p hp => hp, fun p hp => .inl hp⟩
  | cons row rows ih =>
    have hrow := h row (by simp)
    have hchange : isUserChange cfg { row with ts := startedAt } = true := hrow
    have hstart : row.changeType ≠ .startCommit := by
      intro hs
      simp [isUserChange, hs, AuditLogChangeType.isRowChange] at hrow
    obtain ⟨hstarts, hsub, hnew⟩ :=
      @ih (saveLog log { row with ts := startedAt }) fun r hr => h r (by simp [hr])
    have hviews : userChanges cfg (saveLog log { row with ts := startedAt }) =
        userChanges cfg log ++ [(nextId log, startedAt)] := by
      rw [userChanges_saveLog, if_pos hchange]
    refine ⟨?_, ?_, ?_⟩
    · rw [saveTransaction, List.foldl_cons, ← saveTransaction, hstarts, startTimes_saveLog]
      simp [hstart]
    · intro p hp
      refine hsub ?_
      rw [hviews]
      exact List.mem_append_left _ hp
    · intro p hp
      rcases hnew p hp with hp | hp
      · rw [hviews] at hp
        rcases List.mem_append.mp hp with hp | hp
        · exact .inl hp
        · rw [List.mem_singleton.mp hp]
          exact .inr rfl
      · exact .inr hp

end Views

section Partition

variable (cfg : Config)

structure Partitioned (s : SharedLog) : Prop where
  waiting : ∀ p ∈ userChanges cfg s.log, s.Tried p.1 ∨ ∀ q ∈ s.queried, q ≤ p.2
  starts : ∀ ts ∈ startTimes s.log, ts ∈ s.queried ∨ s.phase.unqueried = some ts
  lookedBack : ∀ start prev, s.phase = .lookedBack start (some prev) → prev.ts ∈ s.queried
  current : ∀ q, s.phase.queried = some q → ∀ p ∈ userChanges cfg s.log, s.Tried p.1 ∨ q < p.2
  visible : ∀ start rows, s.phase = .readDb start rows →
    ∀ p ∈ userChanges cfg rows, p ∈ userChanges cfg s.log
  synced : NothingLost cfg s

variable {cfg} {pl : LogPlanner} {s t : SharedLog}

theorem nothingLost_of_phase (h : ∀ start rows after, t.phase ≠ .synced start rows after) :
    NothingLost cfg t := fun start rows after hphase => absurd hphase (h start rows after)

theorem partitioned_empty : Partitioned cfg {} where
  waiting := by simp [userChanges]
  starts := by simp [startTimes]
  lookedBack := by simp
  current := by simp [CommitPhase.queried]
  visible := by simp
  synced := nothingLost_of_phase (by simp)

theorem Partitioned.of_views (h : Partitioned cfg s) {log : List IasqlAuditLog}
    (hstarts : startTimes log = startTimes s.log)
    (hchanges : userChanges cfg log = userChanges cfg s.log) :
    Partitioned cfg { s with log } where
  waiting := by
    rw [hchanges]
    exact h.waiting
  starts := by
    rw [hstarts]
    exact h.starts
  lookedBack := h.lookedBack
  current := by
    rw [hchanges]
    exact h.current
  visible := by
    rw [hchanges]
    exact h.visible
  synced := h.synced

theorem Partitioned.userTransaction (h : Partitioned cfg s) {startedAt : Nat}
    {rows : List IasqlAuditLog} (hrows : ∀ row ∈ rows, isUserChange cfg row = true)
    (hwaiting : ∀ q ∈ s.queried, q ≤ startedAt)
    (hcurrent : ∀ q, s.phase.queried = some q → q < startedAt) :
    Partitioned cfg { s with log := saveTransaction startedAt rows s.log } := by
  obtain ⟨hstarts, hsub, hnew⟩ := saveTransaction_views hrows
  exact {
    waiting := by
      intro p hp
      rcases hnew p hp with hp | hp
      · exact h.waiting p hp
      · exact .inr fun q hq => hp ▸ hwaiting q hq
    starts := by
      rw [hstarts]
      exact h.starts
    lookedBack := h.lookedBack
    current := by
      intro q hq p hp
      rcases hnew p hp with hp | hp
      · exact h.current q hq p hp
      · exact .inr (hp ▸ hcurrent q hq)
    visible := fun start rows hphase p hp => hsub (h.visible start rows hphase p hp)
    synced := h.synced }

theorem Partitioned.startCommit (h : Partitioned cfg s) (hidle : s.phase = .idle) (ts : Nat)
    (tx : Option String) :
    Partitioned cfg { s with
      log := saveLog s.log (newLog cfg .startCommit ts tx none)
      phase := .started (newLog cfg .startCommit ts tx none) } := by
  have hchanges : userChanges cfg (saveLog s.log (newLog cfg .startCommit ts tx none)) =
      userChanges cfg s.log := by
    simp [userChanges_saveLog, isUserChange]
  exact {
    waiting := by
      rw [hchanges]
      exact h.waiting
    starts := by
      intro q hq
      rw [startTimes_saveLog, if_pos (newLog_changeType _ _ _ _)] at hq
      rcases List.mem_append.mp hq with hq | hq
      · have hq' := h.starts q hq
        rw [hidle] at hq'
        rcases hq' with hq' | hq'
        · exact .inl hq'
        · cases hq'
      · rw [List.mem_singleton.mp hq]
        exact .inr rfl
    lookedBack := by simp
    current := by simp [CommitPhase.queried]
    visible := by simp
    synced := nothingLost_of_phase (by simp) }

theorem Partitioned.lookBack (h : Partitioned cfg s) {start : IasqlAuditLog}
    (hphase : s.phase = .started start) :
    Partitioned cfg { s with
      phase := .lookedBack start (getPreviousStartCommit pl s.log start.ts) } where
  waiting := h.waiting
  starts := by
    have hstarts := h.starts
    rw [hphase] at hstarts
    exact hstarts
  lookedBack := by
    intro start' prev hp
    obtain ⟨rfl, hprev⟩ := CommitPhase.lookedBack.inj hp
    obtain ⟨hmem, htype, hlt⟩ := previousStartCommit_spec hprev
    have hstart := h.starts prev.ts (mem_startTimes.mpr ⟨prev, hmem, htype, rfl⟩)
    rw [hphase] at hstart
    rcases hstart with hq | hq
    · exact hq
    · have heq : start.ts = prev.ts := Option.some.inj hq
      omega
  current := by simp [CommitPhase.queried]
  visible := by simp
  synced := nothingLost_of_phase (by simp)

theorem tried_or_later (h : Partitioned cfg s) {start : IasqlAuditLog}
    {prev : Option IasqlAuditLog} (hphase : s.phase = .lookedBack start prev)
    (htie : inTime cfg s .getChangesToCommit = true) {p : Nat × Nat}
    (hp : p ∈ userChanges cfg s.log) :
    (∃ c ∈ s.tried ++ getChangesToCommit cfg pl s.log start prev, c.id = p.1) ∨ start.ts < p.2 := by
  obtain ⟨row, hrow, hchange, hid, hts⟩ := mem_userChanges.mp hp
  have hfound : inCommitWindow start prev row.ts = true →
      ∃ c ∈ s.tried ++ getChangesToCommit cfg pl s.log start prev, c.id = p.1 := by
    intro hwindow
    have hkind : row.changeType.isRowChange = true ∧ row.user ≠ cfg.dbUser := by
      simpa [isUserChange] using hchange
    have hmem : row ∈ getChangesToCommit cfg pl s.log start prev :=
      mem_getChangesToCommit.mpr
        ⟨hrow, AuditLogChangeType.not_isCommitMarker_of_isRowChange hkind.1, hwindow, hkind.2⟩
    exact ⟨row, List.mem_append_right _ hmem, hid⟩
  by_cases hlater : start.ts < p.2
  · exact .inr hlater
  · left
    cases prev with
    | none =>
      have hne : row.ts ≠ start.ts := by
        simp only [inTime, hphase, List.all_eq_true] at htie
        simpa [hchange] using htie row hrow
      have hlt : row.ts < start.ts := by omega
      exact hfound (by simpa [inCommitWindow] using hlt)
    | some prev =>
      rcases h.waiting p hp with ⟨c, hc, hcid⟩ | hwait
      · exact ⟨c, List.mem_append_left _ hc, hcid⟩
      · have hprev := hwait prev.ts (h.lookedBack start prev hphase)
        have hwindow : prev.ts ≤ row.ts ∧ row.ts ≤ start.ts := by omega
        exact hfound (by simpa [inCommitWindow] using hwindow)

theorem Partitioned.findChanges (h : Partitioned cfg s) {start : IasqlAuditLog}
    {prev : Option IasqlAuditLog} (hphase : s.phase = .lookedBack start prev)
    (htie : inTime cfg s .getChangesToCommit = true) :
    Partitioned cfg { s with
      phase := .found start
      tried := s.tried ++ getChangesToCommit cfg pl s.log start prev
      queried := start.ts :: s.queried } where
  waiting := by
    intro p hp
    rcases tried_or_later h hphase htie hp with htried | hlater
    · exact .inl htried
    · rcases h.waiting p hp with ⟨c, hc, hid⟩ | hwait
      · exact .inl ⟨c, List.mem_append_left _ hc, hid⟩
      · right
        intro q hq
        rcases List.mem_cons.mp hq with rfl | hq
        · omega
        · exact hwait q hq
  starts := by
    intro ts hts
    have hstart := h.starts ts hts
    rw [hphase] at hstart
    rcases hstart with hq | hq
    · exact .inl (List.mem_cons_of_mem _ hq)
    · have heq : start.ts = ts := Option.some.inj hq
      exact .inl (heq ▸ List.mem_cons_self)
  lookedBack := by simp
  current := by
    rintro q ⟨⟩ p hp
    exact tried_or_later h hphase htie hp
  visible := by simp
  synced := nothingLost_of_phase (by simp)

theorem Partitioned.readDb (h : Partitioned cfg s) {start : IasqlAuditLog}
    (hphase : s.phase.queried = some start.ts) :
    Partitioned cfg { s with phase := .readDb start s.log } where
  waiting := h.waiting
  starts := by
    intro ts hts
    rcases h.starts ts hts with hq | hq
    · exact .inl hq
    · cases hs : s.phase <;> simp_all [CommitPhase.queried, CommitPhase.unqueried]
  lookedBack := by simp
  current := by
    rintro q ⟨⟩ p hp
    exact h.current start.ts hphase p hp
  visible := by
    rintro start' rows ⟨⟩ p hp
    exact hp
  synced := nothingLost_of_phase (by simp)

theorem Partitioned.changesAfter (h : Partitioned cfg s) {start : IasqlAuditLog}
    {visible : List IasqlAuditLog} (hphase : s.phase = .readDb start visible) :
    Partitioned cfg { s with
      phase := .synced start visible (getChangesAfterCommit cfg pl s.log (some start.ts)) } where
  waiting := h.waiting
  starts := by
    have hstarts := h.starts
    rw [hphase] at hstarts
    exact hstarts
  lookedBack := by simp
  current := by
    rintro q ⟨⟩ p hp
    exact h.current start.ts (by rw [hphase]; rfl) p hp
  visible := by simp
  synced := by
    intro start' rows after heq row hrow hchange
    obtain ⟨rfl, rfl, rfl⟩ := CommitPhase.synced.inj heq
    have hseen : (row.id, row.ts) ∈ userChanges cfg s.log :=
      h.visible _ _ hphase _ (mem_userChanges.mpr ⟨row, hrow, hchange, rfl, rfl⟩)
    rcases h.current start.ts (by rw [hphase]; rfl) _ hseen with htried | hlater
    · exact .inl htried
    · obtain ⟨l, hl, hlchange, hid, hts⟩ := mem_userChanges.mp hseen
      have hkind : l.changeType.isRowChange = true ∧ l.user ≠ cfg.dbUser := by
        simpa [isUserChange] using hlchange
      refine .inr ⟨l, mem_getChangesAfterCommit.mpr ⟨hl, ?_, ?_, hkind.2⟩, hid⟩
      · exact AuditLogChangeType.not_isCommitMarker_of_isRowChange hkind.1
      · omega

theorem Partitioned.endCommit (h : Partitioned cfg s) (hphase : s.phase.unqueried = none) :
    Partitioned cfg { s with phase := .idle } where
  waiting := h.waiting
  starts := by
    have hstarts := h.starts
    rw [hphase] at hstarts
    exact hstarts
  lookedBack := by simp
  current := by simp [CommitPhase.queried]
  visible := by simp
  synced := nothingLost_of_phase (by simp)

theorem Partitioned.step (h : Partitioned cfg s) {a : SharedAction} (hok : inTime cfg s a = true)
    (hstep : sharedStep cfg pl s a = some t) : Partitioned cfg t := by
  cases a with
  | userTransaction startedAt rows =>
    obtain ⟨hrows, heq⟩ := Option.ite_none_right_eq_some.mp hstep
    cases heq
    have hlate : (∀ q ∈ s.queried, q ≤ startedAt) ∧
        ∀ q, s.phase.queried = some q → q < startedAt := by
      simpa [inTime, Option.all_eq_true] using hok
    exact h.userTransaction (by simpa using hrows) hlate.1 hlate.2
  | engineLog row =>
    obtain ⟨hrow, heq⟩ := Option.ite_none_right_eq_some.mp hstep
    cases heq
    have hkind : row.user = cfg.dbUser ∧ row.changeType ≠ .startCommit := by simpa using hrow
    refine h.of_views ?_ ?_
    · simp [startTimes_saveLog, hkind.2]
    · simp [userChanges_saveLog, isUserChange, hkind.1]
  | associate changes tx =>
    cases hstep
    exact h.of_views (startTimes_associateTransaction changes tx)
      (userChanges_associateTransaction changes tx)
  | startCommit ts tx =>
    cases hphase : s.phase <;> simp only [sharedStep, hphase] at hstep <;> cases hstep
    exact h.startCommit hphase ts tx
  | getPreviousStartCommit =>
    cases hphase : s.phase <;> simp only [sharedStep, hphase] at hstep <;> cases hstep
    exact h.lookBack hphase
  | getChangesToCommit =>
    cases hphase : s.phase <;> simp only [sharedStep, hphase] at hstep <;> cases hstep
    exact h.findChanges hphase hok
  | readDb =>
    cases hphase : s.phase <;> simp only [sharedStep, hphase] at hstep <;> cases hstep
    all_goals exact h.readDb (by rw [hphase]; rfl)
  | getChangesAfterCommit =>
    cases hphase : s.phase <;> simp only [sharedStep, hphase] at hstep <;> cases hstep
    exact h.changesAfter hphase
  | endCommit =>
    cases hstep
    exact h.endCommit (by simpa [inTime] using hok)

theorem nothingLost_of_inTime (h : Run {} (sharedStep cfg pl) (inTime cfg) s) :
    NothingLost cfg s :=
  (h.invariant partitioned_empty fun _ _ _ hi hok hstep => hi.step hok hstep).synced

end Partition

section Lost

def iasqlConfig : Config := { dbUser := "iasql", version := "0.0.1" }

def ownerStep : SharedLog → SharedAction → Option SharedLog :=
  sharedStep iasqlConfig (Newest.Planner.stable IasqlAuditLog.ts)

def vpcInsert : IasqlAuditLog :=
  { ts := 0, user := "owner", tableName := "vpc", changeType := .insert,
    change := { change := some [("name", .str "main")] } }

def queriesThen (ts : Nat) (rest : List SharedAction) : List SharedAction :=
  [.startCommit ts none, .getPreviousStartCommit, .getChangesToCommit] ++ rest ++
    [.readDb, .getChangesAfterCommit]

def anyTime (_ : SharedLog) (_ : SharedAction) : Bool := true

def after (as : List SharedAction) : SharedLog := (replay ownerStep anyTime {} as).getD {}

theorem after_run {as : List SharedAction} (h : (replay ownerStep anyTime {} as).isSome = true) :
    Run {} ownerStep anyTime (after as) := by
  obtain ⟨s, hs⟩ := Option.isSome_iff_exists.mp h
  have hafter : after as = s := by rw [after, hs, Option.getD_some]
  exact hafter ▸ Run.start.replay hs

-- a transaction older than START_COMMIT that becomes visible between the two queries, and one
-- as old as the first START_COMMIT
theorem late_and_tied_changes_lost :
    (Run {} ownerStep anyTime (after (queriesThen 2 [.userTransaction 1 [vpcInsert]])) ∧
      ¬ NothingLost iasqlConfig (after (queriesThen 2 [.userTransaction 1 [vpcInsert]]))) ∧
    Run {} ownerStep anyTime (after (.userTransaction 2 [vpcInsert] :: queriesThen 2 [])) ∧
      ¬ NothingLost iasqlConfig (after (.userTransaction 2 [vpcInsert] :: queriesThen 2 [])) := by
  refine ⟨⟨after_run (by decide +kernel), fun h => ?_⟩, after_run (by decide +kernel), fun h => ?_⟩
  · have hlost := h _ _ _ rfl { vpcInsert with id := 2, ts := 1 } (by decide +kernel) rfl
    revert hlost
    simp only [SharedLog.Tried]
    decide +kernel
  · have hlost := h _ _ _ rfl { vpcInsert with id := 1, ts := 2 } (by decide +kernel) rfl
    revert hlost
    simp only [SharedLog.Tried]
    decide +kernel

theorem timely_changes_kept : NothingLost iasqlConfig
    (after (.userTransaction 1 [vpcInsert] :: queriesThen 2 [.userTransaction 3 [vpcInsert]])) := by
  have hreplay : replay ownerStep (inTime iasqlConfig) {}
      (.userTransaction 1 [vpcInsert] :: queriesThen 2 [.userTransaction 3 [vpcInsert]]) =
        some (after (.userTransaction 1 [vpcInsert] ::
          queriesThen 2 [.userTransaction 3 [vpcInsert]])) := by decide +kernel
  exact nothingLost_of_inTime (Run.start.replay hreplay)

end Lost

end Iasql
