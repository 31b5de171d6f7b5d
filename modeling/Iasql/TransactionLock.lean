import Mathlib.Logic.Function.Basic
import Iasql.Calculus.Process
import Iasql.Calculus.Runs
import Iasql.AuditLog

namespace Iasql

open Process Process.Process Runs

inductive PreTransactionCheck where
  | noCheck | failIfNotLocked | waitForLock
deriving DecidableEq

inductive PostTransactionCheck where
  | noCheck | unlockIfSucceed | unlockAlways
deriving DecidableEq

inductive Call where
  | isCommitRunning
  | isOpenTransaction
  | getCurrentTransactionId
  | updateIasqlRecordsSince (changeType : AuditLogChangeType) (transactionId : Option String)
  | insertLog (changeType : AuditLogChangeType) (transactionId : Option String)
  | uuidv4
  -- which of two concurrent queries is answered first
  | race
  -- the body of the RPC: false when it throws
  | rpc
deriving DecidableEq

@[reducible] def Call.Answer : Call → Type
  | .isCommitRunning | .isOpenTransaction | .race | .rpc => Bool
  | .getCurrentTransactionId => Option String
  | .updateIasqlRecordsSince _ _ | .insertLog _ _ => Unit
  | .uuidv4 => String

abbrev Client := Process Call Call.Answer

section Calls

def ask (op : Call) : Client op.Answer := perform op

def runningAndOpen : Client (Bool × Bool) := do
  if ← ask .race then
    let isRunning ← ask .isCommitRunning
    let openTransaction ← ask .isOpenTransaction
    return (isRunning, openTransaction)
  else
    let openTransaction ← ask .isOpenTransaction
    let isRunning ← ask .isCommitRunning
    return (isRunning, openTransaction)

-- false: another transaction is open or running
def maybeOpenTransaction : Nat → Client Bool
  | 0 => return false
  | loops + 1 => do
    let (isRunning, openTransaction) ← runningAndOpen
    if !isRunning && !openTransaction then
      let transactionId ← ask .uuidv4
      ask (.insertLog .openTransaction (some transactionId))
      return true
    else maybeOpenTransaction loops

def closeTransaction : Client Unit := do
  let currentTransactionId ← ask .getCurrentTransactionId
  ask (.updateIasqlRecordsSince .openTransaction currentTransactionId)
  ask (.insertLog .closeTransaction currentTransactionId)

def preTransaction (iasqlBegin : Client Bool) : Option PreTransactionCheck → Client Bool
  | some .noCheck => return true
  | some .failIfNotLocked => ask .isOpenTransaction
  | some .waitForLock => maybeOpenTransaction 120
  | none => iasqlBegin

def postTransaction (iasqlCommit : Client Bool) (rpcRes : Bool) :
    Option PostTransactionCheck → Client Bool
  | some .noCheck => return rpcRes
  | some .unlockIfSucceed => do
    if rpcRes then closeTransaction
    return rpcRes
  | some .unlockAlways => do
    closeTransaction
    return rpcRes
  | none => do
    let committed ← iasqlCommit
    if !committed then closeTransaction
    return rpcRes && committed

def rpcCallWith (iasqlBegin iasqlCommit : Client Bool) (pre : Option PreTransactionCheck)
    (post : Option PostTransactionCheck) : Client Bool := do
  if ← preTransaction iasqlBegin pre then
    let rpcRes ← ask .rpc
    postTransaction iasqlCommit rpcRes post
  else return false

-- the two RPCs that the default checks call name their own checks
def iasqlBegin : Client Bool :=
  rpcCallWith (return false) (return false) (some .waitForLock) (some .noCheck)

def iasqlCommit : Client Bool :=
  rpcCallWith (return false) (return false) (some .failIfNotLocked) (some .unlockAlways)

def rpcCall (pre : Option PreTransactionCheck) (post : Option PostTransactionCheck) : Client Bool :=
  rpcCallWith iasqlBegin iasqlCommit pre post

end Calls

section System

variable (cfg : Config) (pl : LogPlanner) {ι : Type} [DecidableEq ι]

-- what the clock, the scheduler and the RPC contribute to an answer
structure Chance where
  ts : Nat := 0
  flag : Bool := false
  uuid : String := ""

def answer (log : List IasqlAuditLog) (chance : Chance) :
    (op : Call) → op.Answer × List IasqlAuditLog
  | .isCommitRunning => (isCommitRunning cfg pl log, log)
  | .isOpenTransaction => (isOpenTransaction pl log, log)
  | .getCurrentTransactionId => (getCurrentTransactionId pl log, log)
  | .updateIasqlRecordsSince changeType tx => ((), updateIasqlRecordsSince cfg pl log changeType tx)
  | .insertLog changeType tx => ((), saveLog log (newLog cfg changeType chance.ts tx none))
  | .uuidv4 => (chance.uuid, log)
  | .race => (chance.flag, log)
  | .rpc => (chance.flag, log)

-- seen is kept for the statement only: the records there were when the client last read that no
-- transaction is open
structure Locking (ι : Type) where
  log : List IasqlAuditLog := []
  client : ι → Client Bool := fun _ => .ret true
  seen : ι → Option Nat := fun _ => none

inductive LockAction (ι : Type) where
  | issue (i : ι) (pre : Option PreTransactionCheck) (post : Option PostTransactionCheck)
  | proceed (i : ι) (chance : Chance)
  -- a row change, or a record of a commit, of a revert or of an error
  | record (row : IasqlAuditLog)
  | crash (i : ι)

def nowSeen (log : List IasqlAuditLog) (seen : Option Nat) : (op : Call) → op.Answer → Option Nat
  | .isOpenTransaction, found => if found then none else some log.length
  | .insertLog .openTransaction _, _ => none
  | _, _ => seen

def lockStep (s : Locking ι) : LockAction ι → Option (Locking ι)
  | .issue i pre post =>
    match s.client i with
    | .ret _ => some { s with client := Function.update s.client i (rpcCall pre post) }
    | .call _ _ => none
  | .proceed i chance =>
    match s.client i with
    | .ret _ => none
    | .call op next =>
      let (res, log) := answer cfg pl s.log chance op
      some {
        log
        client := Function.update s.client i (next res)
        seen := Function.update s.seen i (nowSeen s.log (s.seen i) op res) }
  | .record row =>
    if row.changeType.isTransactionMarker then none else some { s with log := saveLog s.log row }
  | .crash i => some { s with client := Function.update s.client i (.ret false) }

def markers (log : List IasqlAuditLog) : List (AuditLogChangeType × Nat) :=
  (log.filter fun l => l.changeType.isTransactionMarker).map fun l => (l.changeType, l.ts)

def lastKind (log : List IasqlAuditLog) : Option AuditLogChangeType :=
  (markers log).getLast?.map Prod.fst

-- no transaction opened since the client's check is open, and the record is the newest marker
def unraced (s : Locking ι) : LockAction ι → Bool
  | .proceed i chance =>
    match s.client i with
    | .call (.insertLog .openTransaction _) _ =>
      (s.seen i).any (fun n => lastKind (s.log.drop n) != some .openTransaction) &&
        (markers s.log).all (·.2 < chance.ts)
    | _ => true
  | _ => true

def Exclusive (log : List IasqlAuditLog) : Prop :=
  ∀ before between rest, log.map (·.changeType) =
    before ++ .openTransaction :: between ++ .openTransaction :: rest →
      .closeTransaction ∈ between

end System

section Discipline

-- a client opens a transaction only when its latest answer was that none is open
def lockDiscipline : Discipline Bool Call Call.Answer where
  allowed checked op := ∀ tx, op = .insertLog .openTransaction tx → checked = true
  after checked op res :=
    match op, res with
    | .isOpenTransaction, found => !found
    | .insertLog .openTransaction _, _ => false
    | _, _ => checked

abbrev Disciplined (checked : Bool) (p : Client α) : Prop :=
  Follows lockDiscipline (fun _ _ => True) checked p

variable {α : Type} {checked : Bool}

theorem disciplined_ask {op : Call} (h : ∀ tx, op ≠ .insertLog .openTransaction tx) :
    Disciplined checked (ask op) :=
  follows_perform (fun tx heq => absurd heq (h tx)) fun _ => trivial

theorem disciplined_bind {β : Type} {p : Client α} {f : α → Client β}
    (hp : Disciplined checked p) (hf : ∀ c a, Disciplined c (f a)) :
    Disciplined checked (p >>= f) := follows_bind hp fun c a _ => hf c a

theorem disciplined_pure (a : α) : Disciplined checked (pure a : Client α) := follows_pure trivial

theorem runningAndOpen_follows : Follows lockDiscipline (fun c r => c = !r.2) checked
    runningAndOpen := by
  refine ⟨fun tx h => (nomatch h), fun first => ?_⟩
  cases first with
  | true => exact ⟨fun tx h => (nomatch h), fun _ => ⟨fun tx h => (nomatch h), fun _ => rfl⟩⟩
  | false => exact ⟨fun tx h => (nomatch h), fun _ => ⟨fun tx h => (nomatch h), fun _ => rfl⟩⟩

theorem maybeOpenTransaction_disciplined (loops : Nat) :
    Disciplined checked (maybeOpenTransaction loops) := by
  induction loops generalizing checked with
  | zero => exact disciplined_pure false
  | succ loops ih =>
    refine follows_bind runningAndOpen_follows fun c r hc => ?_
    refine follows_ite (fun h => ?_) fun _ => ih
    have hclosed : c = true := by
      simp only [Bool.and_eq_true] at h
      rw [hc, h.2]
    refine ⟨fun tx h => (nomatch h), fun uuid => ⟨fun tx _ => hclosed, fun _ => ?_⟩⟩
    exact disciplined_pure true

theorem closeTransaction_disciplined : Disciplined checked closeTransaction := by
  refine disciplined_bind (disciplined_ask (by simp)) fun c tx => ?_
  refine disciplined_bind (disciplined_ask (by simp)) fun c _ => ?_
  exact disciplined_ask (by simp)

theorem rpcCallWith_disciplined {iasqlBegin iasqlCommit : Client Bool}
    (hbegin : ∀ c, Disciplined c iasqlBegin) (hcommit : ∀ c, Disciplined c iasqlCommit)
    (pre : Option PreTransactionCheck) (post : Option PostTransactionCheck) :
    Disciplined checked (rpcCallWith iasqlBegin iasqlCommit pre post) := by
  have hpre : ∀ c, Disciplined c (preTransaction iasqlBegin pre) := by
    intro c
    rcases pre with _ | _ | _ | _
    · exact hbegin c
    · exact disciplined_pure true
    · exact disciplined_ask (by simp)
    · exact maybeOpenTransaction_disciplined 120
  have hclose : ∀ c (r : Bool), Disciplined c (closeTransaction >>= fun _ => (pure r : Client Bool)) :=
    fun c r => disciplined_bind closeTransaction_disciplined fun c _ => disciplined_pure r
  have hpost : ∀ c res, Disciplined c (postTransaction iasqlCommit res post) := by
    intro c res
    rcases post with _ | _ | _ | _
    · exact disciplined_bind (hcommit c) fun c committed =>
        follows_ite (fun _ => hclose c _) fun _ => disciplined_pure _
    · exact disciplined_pure res
    · exact follows_ite (fun _ => hclose c res) fun _ => disciplined_pure res
    · exact hclose c res
  refine disciplined_bind (hpre checked) fun c locked => ?_
  refine follows_ite (fun _ => ?_) fun _ => disciplined_pure false
  exact disciplined_bind (disciplined_ask (by simp)) hpost

theorem rpcCall_disciplined (pre : Option PreTransactionCheck)
    (post : Option PostTransactionCheck) : Disciplined checked (rpcCall pre post) :=
  rpcCallWith_disciplined
    (fun _ => rpcCallWith_disciplined (fun _ => disciplined_pure false)
      (fun _ => disciplined_pure false) _ _)
    (fun _ => rpcCallWith_disciplined (fun _ => disciplined_pure false)
      (fun _ => disciplined_pure false) _ _) pre post

end Discipline

section Markers

variable {cfg : Config} {pl : LogPlanner} {log log' : List IasqlAuditLog} {row : IasqlAuditLog}

theorem markers_append (log log' : List IasqlAuditLog) :
    markers (log ++ log') = markers log ++ markers log' := by
  simp [markers]

theorem markers_saveLog : markers (saveLog log row) =
    markers log ++
      if row.changeType.isTransactionMarker then [(row.changeType, row.ts)] else [] := by
  rw [saveLog, markers_append]
  cases h : row.changeType.isTransactionMarker <;> simp [markers, h]

theorem kinds_saveLog : (saveLog log row).map (·.changeType) =
    log.map (·.changeType) ++ [row.changeType] := by
  simp [saveLog]

theorem markers_map {f : IasqlAuditLog → IasqlAuditLog}
    (h : ∀ l, (f l).changeType = l.changeType ∧ (f l).ts = l.ts) :
    markers (log.map f) = markers log := by
  induction log with
  | nil => rfl
  | cons l log ih =>
    rw [markers] at ih ⊢
    cases hl : l.changeType.isTransactionMarker <;> simp_all [markers]

theorem lastKind_eq : lastKind log =
    ((log.map (·.changeType)).filter AuditLogChangeType.isTransactionMarker).getLast? := by
  rw [lastKind, ← List.getLast?_map, markers]
  simp [List.filter_map, Function.comp_def]

theorem lastKind_append_open (h : lastKind (log ++ log') = some .openTransaction) :
    lastKind log' = some .openTransaction ∨
      lastKind log' = none ∧ lastKind log = some .openTransaction := by
  rw [lastKind, markers_append, List.getLast?_append] at h
  unfold lastKind
  cases hlast : (markers log').getLast? with
  | none => exact .inr ⟨rfl, by simpa [hlast] using h⟩
  | some p => exact .inl (by simpa [hlast] using h)

theorem mem_markers {p : AuditLogChangeType × Nat} : p ∈ markers log ↔
    ∃ l ∈ log, l.changeType.isTransactionMarker = true ∧ (l.changeType, l.ts) = p := by
  simp [markers, and_assoc]

-- an open transaction is newer than every other marker
def OpenIsNewest (log : List IasqlAuditLog) : Prop :=
  ∀ earlier ts, markers log = earlier ++ [(.openTransaction, ts)] → ∀ p ∈ earlier, p.2 < ts

theorem lastKind_of_isOpenTransaction (h : OpenIsNewest log)
    (hclosed : isOpenTransaction pl log = false) : lastKind log ≠ some .openTransaction := by
  intro hlast
  obtain ⟨⟨t, ts⟩, hmem, rfl⟩ := Option.map_eq_some_iff.mp hlast
  obtain ⟨earlier, hearlier⟩ := List.getLast?_eq_some_iff.mp hmem
  obtain ⟨l, hl, hmarker, heq⟩ := mem_markers.mp (List.mem_of_getLast? hmem)
  unfold isOpenTransaction at hclosed
  split at hclosed
  · next newest hfound =>
    have hnewest := pl.findOne_mem hfound
    have hle := pl.findOne_newest hfound hl hmarker
    have hts : l.ts = ts := congrArg Prod.snd heq
    have hnew : (newest.changeType, newest.ts) ∈ earlier ++ [(.openTransaction, ts)] :=
      hearlier ▸ mem_markers.mpr ⟨newest, hnewest.1, hnewest.2, rfl⟩
    rcases List.mem_append.mp hnew with hmem | hmem
    · have hlt : newest.ts < ts := h earlier ts hearlier _ hmem
      omega
    · have hopen : newest.changeType = .openTransaction :=
        congrArg Prod.fst (List.mem_singleton.mp hmem)
      simp [hopen] at hclosed
  · next hnone =>
    have hfalse := pl.findOne_eq_none.mp hnone l hl
    rw [hmarker] at hfalse
    cases hfalse

theorem getLast?_of_all {x : AuditLogChangeType} {xs ys : List AuditLogChangeType}
    (h : ∀ y ∈ ys, y = x) : (xs ++ x :: ys).getLast? = some x := by
  rcases List.eq_nil_or_concat ys with rfl | ⟨ys, y, rfl⟩
  · simp
  · have hy : y = x := h y (by simp)
    rw [List.concat_eq_append, ← List.cons_append, ← List.append_assoc, List.getLast?_concat, hy]

theorem lastKind_of_unclosed {before between : List AuditLogChangeType}
    (hkinds : log.map (·.changeType) = before ++ .openTransaction :: between)
    (hnone : .closeTransaction ∉ between) : lastKind log = some .openTransaction := by
  have hall : ∀ t ∈ between.filter AuditLogChangeType.isTransactionMarker,
      t = .openTransaction := by
    intro t ht
    obtain ⟨hmem, hmarker⟩ := List.mem_filter.mp ht
    have hne : t ≠ .closeTransaction := fun h => hnone (h ▸ hmem)
    cases t <;> simp_all [AuditLogChangeType.isTransactionMarker]
  rw [lastKind_eq, hkinds, List.filter_append, List.filter_cons_of_pos rfl]
  exact getLast?_of_all hall

theorem exclusive_saveLog (h : Exclusive log)
    (hrow : row.changeType = .openTransaction → lastKind log ≠ some .openTransaction) :
    Exclusive (saveLog log row) := by
  intro before between rest heq
  rw [kinds_saveLog] at heq
  rcases List.eq_nil_or_concat rest with rfl | ⟨rest, t, rfl⟩
  · obtain ⟨hkinds, htype⟩ := List.append_inj' heq rfl
    have hlast := hrow (List.singleton_inj.mp htype)
    by_contra hnone
    exact hlast (lastKind_of_unclosed hkinds hnone)
  · have heq' : log.map (·.changeType) ++ [row.changeType] =
        (before ++ .openTransaction :: between ++ .openTransaction :: rest) ++ [t] := by
      rw [heq]
      simp
    exact h before between rest (List.append_inj' heq' rfl).1

end Markers

section Safety

variable {ι : Type} {log : List IasqlAuditLog} {seen : ι → Option Nat}

structure Marked (log : List IasqlAuditLog) (seen : ι → Option Nat) : Prop where
  newest : OpenIsNewest log
  exclusive : Exclusive log
  checked : ∀ i n, seen i = some n →
    n ≤ log.length ∧ lastKind (log.take n) ≠ some .openTransaction

structure Locked (s : Locking ι) : Prop where
  marked : Marked s.log s.seen
  disciplined : ∀ i, Disciplined (s.seen i).isSome (s.client i)

theorem Marked.map (h : Marked log seen) {f : IasqlAuditLog → IasqlAuditLog}
    (hf : ∀ l, (f l).changeType = l.changeType ∧ (f l).ts = l.ts) : Marked (log.map f) seen where
  newest := by
    rw [OpenIsNewest, markers_map hf]
    exact h.newest
  exclusive := by
    have hkinds : (log.map f).map (·.changeType) = log.map (·.changeType) := by
      simp [hf, Function.comp_def]
    rw [Exclusive, hkinds]
    exact h.exclusive
  checked := by
    intro i n hn
    rw [List.length_map, ← List.map_take, lastKind, markers_map hf]
    exact h.checked i n hn

theorem Marked.associate (h : Marked log seen) {cfg : Config} {pl : LogPlanner}
    (t : AuditLogChangeType) (tx : Option String) :
    Marked (updateIasqlRecordsSince cfg pl log t tx) seen := by
  unfold updateIasqlRecordsSince
  split
  · exact h
  · exact h.map fun l => ⟨associated_changeType _ _ l, associated_ts _ _ l⟩

theorem Marked.save (h : Marked log seen) {row : IasqlAuditLog}
    (hopen : row.changeType = .openTransaction →
      lastKind log ≠ some .openTransaction ∧ ∀ p ∈ markers log, p.2 < row.ts) :
    Marked (saveLog log row) seen where
  newest := by
    intro earlier ts heq
    rw [markers_saveLog] at heq
    split at heq
    · obtain ⟨rfl, hlast⟩ := List.append_inj' heq rfl
      obtain ⟨htype, rfl⟩ := Prod.mk.inj (List.singleton_inj.mp hlast)
      exact (hopen htype).2
    · rw [List.append_nil] at heq
      exact h.newest earlier ts heq
  exclusive := exclusive_saveLog h.exclusive fun heq => (hopen heq).1
  checked := by
    intro i n hn
    obtain ⟨hle, hlast⟩ := h.checked i n hn
    rw [saveLog, List.take_append_of_le_length hle, List.length_append]
    exact ⟨by omega, hlast⟩

theorem Marked.unopened (h : Marked log seen) {i : ι}
    (hseen : (seen i).any (fun n => lastKind (log.drop n) != some .openTransaction) = true) :
    lastKind log ≠ some .openTransaction := by
  intro hopen
  cases hn : seen i with
  | none => simp [hn] at hseen
  | some n =>
    have hdrop : lastKind (log.drop n) ≠ some .openTransaction := by simpa [hn] using hseen
    rw [← List.take_append_drop n log] at hopen
    rcases lastKind_append_open hopen with hlate | ⟨-, hearly⟩
    · exact hdrop hlate
    · exact (h.checked i n hn).2 hearly

theorem locked_empty : Locked ({} : Locking ι) where
  marked := ⟨by simp [OpenIsNewest, markers], by simp [Exclusive], by simp⟩
  disciplined := fun _ => disciplined_pure true

variable [DecidableEq ι] {cfg : Config} {pl : LogPlanner} {s t : Locking ι}

theorem Marked.forget (h : Marked log seen) (i : ι) : Marked log (Function.update seen i none) where
  newest := h.newest
  exclusive := h.exclusive
  checked := by
    intro j n hn
    by_cases hj : j = i
    · subst hj
      rw [Function.update_self] at hn
      cases hn
    · rw [Function.update_of_ne hj] at hn
      exact h.checked j n hn

theorem Marked.check (h : Marked log seen) (i : ι) :
    Marked log (Function.update seen i
      (if isOpenTransaction pl log then none else some log.length)) := by
  split
  · exact h.forget i
  · next hclosed =>
    refine ⟨h.newest, h.exclusive, fun j n hn => ?_⟩
    by_cases hj : j = i
    · subst hj
      rw [Function.update_self] at hn
      cases hn
      rw [List.take_length]
      exact ⟨le_rfl, lastKind_of_isOpenTransaction h.newest (by simpa using hclosed)⟩
    · rw [Function.update_of_ne hj] at hn
      exact h.checked j n hn

theorem nowSeen_isSome (op : Call) (res : op.Answer) (seen : Option Nat) :
    (nowSeen log seen op res).isSome = lockDiscipline.after seen.isSome op res := by
  cases op with
  | isOpenTransaction => cases res <;> rfl
  | insertLog t tx => cases t <;> rfl
  | _ => rfl

theorem Locked.answered (h : Locked s) {i : ι} {op : Call} {next : op.Answer → Client Bool}
    (hi : s.client i = .call op next) {chance : Chance}
    (hok : unraced s (.proceed i chance) = true) :
    Marked (answer cfg pl s.log chance op).2
      (Function.update s.seen i (nowSeen s.log (s.seen i) op (answer cfg pl s.log chance op).1)) := by
  have hsame : Marked s.log (Function.update s.seen i (s.seen i)) := by
    rw [Function.update_eq_self]
    exact h.marked
  cases op with
  | isOpenTransaction => exact h.marked.check i
  | updateIasqlRecordsSince t tx => exact hsame.associate t tx
  | insertLog t tx =>
    simp only [unraced, hi] at hok
    cases t with
    | openTransaction =>
      obtain ⟨hseen, hnewest⟩ := (Bool.and_eq_true _ _).mp hok
      refine (h.marked.forget i).save fun _ => ⟨h.marked.unopened hseen, ?_⟩
      simpa using hnewest
    | _ => exact hsame.save (by simp)
  | _ => exact hsame

theorem Locked.step (h : Locked s) {a : LockAction ι} (hok : unraced s a = true)
    (hstep : lockStep cfg pl s a = some t) : Locked t := by
  cases a with
  | issue i pre post =>
    cases hi : s.client i <;> simp only [lockStep, hi] at hstep <;> cases hstep
    refine ⟨h.marked, fun j => ?_⟩
    by_cases hj : j = i
    · subst hj
      simpa using rpcCall_disciplined pre post
    · simpa [hj] using h.disciplined j
  | proceed i chance =>
    cases hi : s.client i <;> simp only [lockStep, hi] at hstep <;> cases hstep
    next op next =>
    refine ⟨h.answered hi hok, fun j => ?_⟩
    by_cases hj : j = i
    · subst hj
      have hnow := h.disciplined j
      rw [hi] at hnow
      simpa [nowSeen_isSome] using hnow.2 (answer cfg pl s.log chance op).1
    · simpa [hj] using h.disciplined j
  | record row =>
    obtain ⟨hrow, heq⟩ := Option.ite_none_left_eq_some.mp hstep
    cases heq
    refine ⟨h.marked.save fun htype => ?_, h.disciplined⟩
    rw [htype] at hrow
    exact absurd rfl hrow
  | crash i =>
    cases hstep
    refine ⟨h.marked, fun j => ?_⟩
    by_cases hj : j = i
    · subst hj
      change Disciplined _ (Function.update s.client j (.ret false) j)
      rw [Function.update_self]
      exact disciplined_pure false
    · simpa [hj] using h.disciplined j

theorem exclusive_of_unraced (h : Run {} (lockStep cfg pl) unraced s) : Exclusive s.log :=
  (h.invariant locked_empty fun _ _ _ hi hok hstep => hi.step hok hstep).marked.exclusive

end Safety

section Race

def beginStep : Locking Bool → LockAction Bool → Option (Locking Bool) :=
  lockStep { dbUser := "iasql", version := "0.0.1" } (Newest.Planner.stable IasqlAuditLog.ts)

def anySchedule (_ : Locking Bool) (_ : LockAction Bool) : Bool := true

def scheduled (ok : Locking Bool → LockAction Bool → Bool) (as : List (LockAction Bool)) :
    Locking Bool := (replay beginStep ok {} as).getD {}

theorem scheduled_run {ok : Locking Bool → LockAction Bool → Bool} {as : List (LockAction Bool)}
    (h : (replay beginStep ok {} as).isSome = true) : Run {} beginStep ok (scheduled ok as) := by
  obtain ⟨s, hs⟩ := Option.isSome_iff_exists.mp h
  have hend : scheduled ok as = s := by rw [scheduled, hs, Option.getD_some]
  exact hend ▸ Run.start.replay hs

-- both clients read before either inserts
def racing : List (LockAction Bool) :=
  [.issue false (some .waitForLock) (some .noCheck), .issue true (some .waitForLock) (some .noCheck),
   .proceed false {}, .proceed false {}, .proceed false {}, .proceed true {}, .proceed true {},
   .proceed true {}, .proceed false { uuid := "a" }, .proceed true { uuid := "b" },
   .proceed false { ts := 1 }, .proceed true { ts := 2 }]

theorem both_clients_open : Run {} beginStep anySchedule (scheduled anySchedule racing) ∧
    ¬ Exclusive (scheduled anySchedule racing).log := by
  refine ⟨scheduled_run (by decide +kernel), fun h => ?_⟩
  have hkinds : (scheduled anySchedule racing).log.map (·.changeType) =
      [.openTransaction, .openTransaction] := by decide +kernel
  exact List.not_mem_nil (h [] [] [] hkinds)

def takingTurns : List (LockAction Bool) :=
  [.issue false (some .waitForLock) (some .noCheck), .proceed false {}, .proceed false {},
   .proceed false {}, .proceed false { uuid := "a" }, .proceed false { ts := 1 },
   .proceed false { flag := true }, .issue false (some .failIfNotLocked) (some .unlockAlways),
   .proceed false {}, .proceed false { flag := true }, .proceed false {}, .proceed false {},
   .proceed false { ts := 2 }, .issue true (some .waitForLock) (some .noCheck), .proceed true {},
   .proceed true {}, .proceed true {}, .proceed true { uuid := "b" }, .proceed true { ts := 3 }]

theorem clients_take_turns : (scheduled unraced takingTurns).log.map (·.changeType) =
    [.openTransaction, .closeTransaction, .openTransaction] ∧
      Exclusive (scheduled unraced takingTurns).log :=
  ⟨by decide +kernel, exclusive_of_unraced (scheduled_run (by decide +kernel))⟩

end Race

end Iasql
