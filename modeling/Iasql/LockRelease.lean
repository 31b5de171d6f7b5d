import Iasql.TransactionLock

namespace Iasql

open Process Process.Process Runs

section Outcomes

abbrev Answers := List (Sigma Call.Answer)

def Closes (h : Answers) : Prop := ∃ tx, ⟨.insertLog .closeTransaction tx, ()⟩ ∈ h

-- the checks before the RPC let it through
def Acquired (pre : Option PreTransactionCheck) (h : Answers) : Prop :=
  ∃ h₁ h₂, h = h₁ ++ h₂ ∧ Reaches (preTransaction iasqlBegin pre) h₁ (.ret true)

def releases : Option PostTransactionCheck → Bool
  | none | some .unlockAlways => true
  | some .noCheck | some .unlockIfSucceed => false

variable {h : Answers} {r : Bool}

theorem Closes.append_left {k : Answers} (hc : Closes h) : Closes (h ++ k) := by
  obtain ⟨tx, hmem⟩ := hc
  exact ⟨tx, List.mem_append_left k hmem⟩

theorem Closes.append_right {k : Answers} (hc : Closes h) : Closes (k ++ h) := by
  obtain ⟨tx, hmem⟩ := hc
  exact ⟨tx, List.mem_append_right k hmem⟩

theorem closeTransaction_closes {u : Unit} (hp : Reaches closeTransaction h (.ret u)) :
    Closes h := by
  obtain ⟨tx, h₁, h₂, rfl, -, hrest⟩ := reaches_bind hp
  obtain ⟨_, h₃, h₄, rfl, -, hlast⟩ := reaches_bind hrest
  have hclose : h₄ = [⟨.insertLog .closeTransaction tx, ()⟩] := reaches_perform hlast
  exact ⟨tx, by simp [hclose]⟩

theorem closing_closes {b : Bool} {p : Client Bool}
    (hp : Reaches (closeTransaction >>= fun _ => p) h (.ret b)) : Closes h := by
  obtain ⟨_, h₁, h₂, rfl, hclose, -⟩ := reaches_bind hp
  exact (closeTransaction_closes hclose).append_left

theorem iasqlCommit_closes (hp : Reaches iasqlCommit h (.ret true)) : Closes h := by
  obtain ⟨locked, h₁, h₂, rfl, -, hrest⟩ := reaches_bind hp
  cases locked with
  | false => cases hrest
  | true =>
    obtain ⟨res, h₃, h₄, rfl, -, hpost⟩ := reaches_bind hrest
    exact (closing_closes hpost).append_right.append_right

theorem postTransaction_closes {post : Option PostTransactionCheck} {res : Bool}
    (hpost : releases post = true)
    (hp : Reaches (postTransaction iasqlCommit res post) h (.ret r)) : Closes h := by
  rcases post with _ | _ | _ | _
  · obtain ⟨committed, h₁, h₂, rfl, hcommit, hrest⟩ := reaches_bind hp
    cases committed with
    | false => exact (closing_closes hrest).append_right
    | true => exact (iasqlCommit_closes hcommit).append_left
  · cases hpost
  · cases hpost
  · exact closing_closes hp

theorem rpcCall_closes {pre : Option PreTransactionCheck} {post : Option PostTransactionCheck}
    (hpost : releases post = true) (hacq : Acquired pre h)
    (hp : Reaches (rpcCall pre post) h (.ret r)) : Closes h := by
  obtain ⟨k₁, k₂, hk, hlocked⟩ := hacq
  obtain ⟨locked, h₁, h₂, rfl, hpre, hrest⟩ := reaches_bind hp
  obtain ⟨rfl, -⟩ := hpre.ret_unique hlocked hk
  obtain ⟨res, h₃, h₄, rfl, -, hlast⟩ := reaches_bind hrest
  exact (postTransaction_closes hpost hlast).append_right.append_right

end Outcomes

section System

variable (cfg : Config) (pl : LogPlanner) {ι : Type} [DecidableEq ι]

abbrev Checks := Option PreTransactionCheck × Option PostTransactionCheck

-- what is beside the locking system is kept for the statement only: the checks of the client's
-- call, what it was answered, and how many records there were after its latest CLOSE
structure Releasing (ι : Type) where
  locking : Locking ι := {}
  checks : ι → Option Checks := fun _ => none
  heard : ι → Answers := fun _ => []
  closed : ι → Option Nat := fun _ => none

def nowClosed (log : List IasqlAuditLog) (closed : Option Nat) : Call → Option Nat
  | .insertLog .closeTransaction _ => some (log.length + 1)
  | _ => closed

def releaseStep (s : Releasing ι) (a : LockAction ι) : Option (Releasing ι) :=
  (lockStep cfg pl s.locking a).map fun locking =>
    match a with
    | .issue i pre post => {
        locking
        checks := Function.update s.checks i (some (pre, post))
        heard := Function.update s.heard i []
        closed := Function.update s.closed i none }
    | .proceed i chance =>
      match s.locking.client i with
      | .ret _ => { s with locking }
      | .call op _ => {
          s with
          locking
          heard := Function.update s.heard i
            (s.heard i ++ [⟨op, (answer cfg pl s.locking.log chance op).1⟩])
          closed := Function.update s.closed i (nowClosed s.locking.log (s.closed i) op) }
    | .record _ => { s with locking }
    | .crash i => { s with locking, checks := Function.update s.checks i none }

-- the clock does not go back between two markers
def clockForward (s : Releasing ι) : LockAction ι → Bool
  | .proceed i chance =>
    match s.locking.client i with
    | .call (.insertLog t _) _ =>
      !t.isTransactionMarker || (markers s.locking.log).all (·.2 ≤ chance.ts)
    | _ => true
  | _ => true

-- nor is a CLOSE stamped with the millisecond of an OPEN
def untied (s : Releasing ι) (a : LockAction ι) : Bool :=
  clockForward s a &&
    match a with
    | .proceed i chance =>
      match s.locking.client i with
      | .call (.insertLog .closeTransaction _) _ =>
        (markers s.locking.log).all fun m => m.1 != .openTransaction || m.2 != chance.ts
      | _ => true
    | _ => true

-- the client's call is over, and no client has opened a transaction since it closed its own
def Released (s : Releasing ι) (i : ι) : Prop :=
  ∀ pre post r, s.checks i = some (pre, post) → releases post = true →
    s.locking.client i = .ret r → Acquired pre (s.heard i) →
    ∃ n, s.closed i = some n ∧
      ((∀ l ∈ s.locking.log.drop n, l.changeType ≠ .openTransaction) →
        ∀ pl : LogPlanner, isOpenTransaction pl s.locking.log = false)

end System

section Safety

variable {ι : Type} {log : List IasqlAuditLog} {closed : ι → Option Nat}

-- a CLOSE among the first n records is later than every OPEN among them
def ClosedLate (log : List IasqlAuditLog) (n : Nat) : Prop :=
  n ≤ log.length ∧ ∃ ts, (.closeTransaction, ts) ∈ markers (log.take n) ∧
    ∀ m ∈ markers (log.take n), m.1 = .openTransaction → m.2 < ts

theorem ClosedLate.map {n : Nat} (h : ClosedLate log n) {f : IasqlAuditLog → IasqlAuditLog}
    (hf : ∀ l, (f l).changeType = l.changeType ∧ (f l).ts = l.ts) :
    ClosedLate (log.map f) n := by
  rw [ClosedLate, List.length_map, ← List.map_take, markers_map hf]
  exact h

theorem ClosedLate.associate {n : Nat} (h : ClosedLate log n) {cfg : Config} {pl : LogPlanner}
    (t : AuditLogChangeType) (tx : Option String) :
    ClosedLate (updateIasqlRecordsSince cfg pl log t tx) n := by
  unfold updateIasqlRecordsSince
  split
  · exact h
  · exact h.map fun l => ⟨associated_changeType _ _ l, associated_ts _ _ l⟩

theorem ClosedLate.save {n : Nat} (h : ClosedLate log n) (row : IasqlAuditLog) :
    ClosedLate (saveLog log row) n := by
  obtain ⟨hle, hlate⟩ := h
  rw [ClosedLate, saveLog, List.take_append_of_le_length hle, List.length_append]
  exact ⟨by omega, hlate⟩

theorem closedLate_now {row : IasqlAuditLog} (hclose : row.changeType = .closeTransaction)
    (hlate : ∀ m ∈ markers log, m.1 = .openTransaction → m.2 < row.ts) :
    ClosedLate (saveLog log row) (log.length + 1) := by
  have hall : (saveLog log row).take (log.length + 1) = saveLog log row :=
    List.take_of_length_le (by simp [saveLog])
  have hmarkers : markers (saveLog log row) = markers log ++ [(.closeTransaction, row.ts)] := by
    rw [markers_saveLog, hclose]
    rfl
  refine ⟨by simp [saveLog], row.ts, ?_, ?_⟩
  · rw [hall, hmarkers]
    simp
  · rw [hall, hmarkers]
    intro m hm hopen
    rcases List.mem_append.mp hm with hm | hm
    · exact hlate m hm hopen
    · rw [List.mem_singleton.mp hm] at hopen
      cases hopen

theorem ClosedLate.not_open {n : Nat} (h : ClosedLate log n)
    (hsince : ∀ l ∈ log.drop n, l.changeType ≠ .openTransaction) (pl : LogPlanner) :
    isOpenTransaction pl log = false := by
  obtain ⟨-, ts, hclose, hlate⟩ := h
  obtain ⟨c, hc, hmarker, heq⟩ := mem_markers.mp hclose
  have hclog : c ∈ log := List.mem_of_mem_take hc
  have hts : c.ts = ts := congrArg Prod.snd heq
  unfold isOpenTransaction
  split
  · next newest hfound =>
    have hmem := pl.findOne_mem hfound
    have hnewest := pl.findOne_newest hfound hclog hmarker
    rw [beq_eq_false_iff_ne]
    intro hopen
    have hlog := hmem.1
    rw [← List.take_append_drop n log] at hlog
    rcases List.mem_append.mp hlog with hearly | hafter
    · have hlt : newest.ts < ts :=
        hlate _ (mem_markers.mpr ⟨newest, hearly, hmem.2, rfl⟩) hopen
      omega
    · exact hsince newest hafter hopen
  · rfl

variable {cfg : Config} {pl : LogPlanner} {s t : Releasing ι}

structure Releasable (s : Releasing ι) : Prop where
  path : ∀ i c, s.checks i = some c →
    Reaches (rpcCall c.1 c.2) (s.heard i) (s.locking.client i)
  noted : ∀ i, Closes (s.heard i) → ∃ n, s.closed i = some n
  late : ∀ i n, s.closed i = some n → ClosedLate s.locking.log n

theorem releasable_empty : Releasable ({} : Releasing ι) where
  path := by simp
  noted := by simp [Closes]
  late := by simp

theorem Releasable.released (h : Releasable s) (i : ι) : Released s i := by
  intro pre post r hchecks hpost hret hacq
  have hpath := h.path i _ hchecks
  rw [hret] at hpath
  obtain ⟨n, hn⟩ := h.noted i (rpcCall_closes hpost hacq hpath)
  exact ⟨n, hn, (h.late i n hn).not_open⟩

variable [DecidableEq ι]

theorem Releasable.answered (h : Releasable s) {i j : ι} {op : Call}
    {next : op.Answer → Client Bool} (hi : s.locking.client i = .call op next) {chance : Chance}
    (hok : untied s (.proceed i chance) = true) {n : Nat}
    (hn : Function.update s.closed i (nowClosed s.locking.log (s.closed i) op) j = some n) :
    ClosedLate (answer cfg pl s.locking.log chance op).2 n := by
  have hkept : nowClosed s.locking.log (s.closed i) op = s.closed i →
      ClosedLate s.locking.log n := by
    intro hsame
    rw [hsame, Function.update_eq_self] at hn
    exact h.late j n hn
  cases op with
  | updateIasqlRecordsSince t tx => exact (hkept rfl).associate t tx
  | insertLog t tx =>
    cases t with
    | closeTransaction =>
      by_cases hj : j = i
      · subst hj
        rw [Function.update_self] at hn
        cases hn
        refine closedLate_now rfl fun m hm hopen => ?_
        simp only [untied, clockForward, hi, Bool.and_eq_true, List.all_eq_true] at hok
        have hle : m.2 ≤ chance.ts := of_decide_eq_true (List.all_eq_true.mp hok.1 m hm)
        have hne : m.2 ≠ chance.ts := by simpa [hopen] using hok.2 m hm
        exact lt_of_le_of_ne hle hne
      · rw [Function.update_of_ne hj] at hn
        exact (h.late j n hn).save _
    | _ => exact (hkept rfl).save _
  | _ => exact hkept rfl

theorem closes_snoc {k : Answers} {op : Call} {r : op.Answer} {log : List IasqlAuditLog}
    {closed : Option Nat} (hk : Closes k → ∃ n, closed = some n)
    (hc : Closes (k ++ [⟨op, r⟩])) : ∃ n, nowClosed log closed op = some n := by
  obtain ⟨tx, hmem⟩ := hc
  rcases List.mem_append.mp hmem with hold | hnew
  · obtain ⟨n, hn⟩ := hk ⟨tx, hold⟩
    unfold nowClosed
    split
    · exact ⟨_, rfl⟩
    · exact ⟨n, hn⟩
  · have heq := List.mem_singleton.mp hnew
    obtain rfl : Call.insertLog .closeTransaction tx = op := congrArg Sigma.fst heq
    exact ⟨_, rfl⟩

theorem Releasable.step (h : Releasable s) {a : LockAction ι} (hok : untied s a = true)
    (hstep : releaseStep cfg pl s a = some t) : Releasable t := by
  obtain ⟨locking, hlock, heq⟩ := Option.map_eq_some_iff.mp hstep
  cases a with
  | issue i pre post =>
    cases hi : s.locking.client i <;> simp only [lockStep, hi] at hlock <;> cases hlock
    subst heq
    refine ⟨fun j c hc => ?_, fun j hc => ?_, fun j n hn => ?_⟩
    · by_cases hj : j = i
      · subst hj
        obtain rfl : (pre, post) = c := by simpa using hc
        simpa using Reaches.here _
      · simp only [Function.update_of_ne hj] at hc ⊢
        exact h.path j c hc
    · by_cases hj : j = i
      · subst hj
        simp [Closes] at hc
      · simp only [Function.update_of_ne hj] at hc ⊢
        exact h.noted j hc
    · by_cases hj : j = i
      · subst hj
        simp at hn
      · simp only [Function.update_of_ne hj] at hn
        exact h.late j n hn
  | proceed i chance =>
    cases hi : s.locking.client i <;> simp only [lockStep, hi] at hlock <;> cases hlock
    next op next =>
    simp only [hi] at heq
    subst heq
    refine ⟨fun j c hc => ?_, fun j hc => ?_, fun j n hn => h.answered hi hok hn⟩
    · by_cases hj : j = i
      · subst hj
        have hpath := h.path j c hc
        rw [hi] at hpath
        simpa using hpath.snoc _
      · simpa only [Function.update_of_ne hj] using h.path j c hc
    · by_cases hj : j = i
      · subst hj
        simp only [Function.update_self] at hc ⊢
        exact closes_snoc (h.noted j) hc
      · simp only [Function.update_of_ne hj] at hc ⊢
        exact h.noted j hc
  | record row =>
    obtain ⟨-, hlocking⟩ := Option.ite_none_left_eq_some.mp hlock
    cases hlocking
    subst heq
    exact ⟨h.path, h.noted, fun j n hn => (h.late j n hn).save row⟩
  | crash i =>
    cases hlock
    subst heq
    refine ⟨fun j c hc => ?_, h.noted, h.late⟩
    by_cases hj : j = i
    · subst hj
      simp at hc
    · simp only [Function.update_of_ne hj] at hc ⊢
      exact h.path j c hc

theorem released_of_untied (h : Run {} (releaseStep cfg pl) untied s) (i : ι) : Released s i :=
  (h.invariant releasable_empty fun _ _ _ hi hok hstep => hi.step hok hstep).released i

end Safety

section Tie

def soloStep : Releasing Unit → LockAction Unit → Option (Releasing Unit) :=
  releaseStep { dbUser := "iasql", version := "0.0.1" } (Newest.Planner.stable IasqlAuditLog.ts)

-- one call that waits for the lock and unlocks always, its two markers stamped at these times
def locked (opened closed : Nat) : List (LockAction Unit) :=
  [.issue () (some .waitForLock) (some .unlockAlways), .proceed () {}, .proceed () {},
   .proceed () {}, .proceed () { uuid := "a" }, .proceed () { ts := opened },
   .proceed () { flag := true }, .proceed () {}, .proceed () {}, .proceed () { ts := closed }]

def soloEnd (ok : Releasing Unit → LockAction Unit → Bool) (as : List (LockAction Unit)) :
    Releasing Unit := (replay soloStep ok {} as).getD {}

theorem soloEnd_run {ok : Releasing Unit → LockAction Unit → Bool} {as : List (LockAction Unit)}
    (h : (replay soloStep ok {} as).isSome = true) : Run {} soloStep ok (soloEnd ok as) := by
  obtain ⟨s, hs⟩ := Option.isSome_iff_exists.mp h
  have hend : soloEnd ok as = s := by rw [soloEnd, hs, Option.getD_some]
  exact hend ▸ Run.start.replay hs

def lockTaken : Answers :=
  [⟨.race, false⟩, ⟨.isOpenTransaction, false⟩, ⟨.isCommitRunning, false⟩, ⟨.uuidv4, "a"⟩,
   ⟨.insertLog .openTransaction (some "a"), ()⟩]

theorem lockTaken_reaches :
    Reaches (preTransaction iasqlBegin (some .waitForLock)) lockTaken (.ret true) := by
  have hdone : Reaches (.ret true : Client Bool) [] (.ret true) := .here _
  exact .answered (.answered (.answered (.answered (.answered hdone))))

theorem tied_close_leaves_open : Run {} soloStep clockForward (soloEnd clockForward (locked 5 5)) ∧
    ¬ Released (soloEnd clockForward (locked 5 5)) () := by
  refine ⟨soloEnd_run (by decide +kernel), fun h => ?_⟩
  have hacq : Acquired (some .waitForLock) ((soloEnd clockForward (locked 5 5)).heard ()) :=
    ⟨lockTaken, _, rfl, lockTaken_reaches⟩
  obtain ⟨n, hn, hopen⟩ := h (some .waitForLock) (some .unlockAlways) true rfl rfl rfl hacq
  have hlate : (soloEnd clockForward (locked 5 5)).closed () = some 2 := by decide +kernel
  obtain rfl : n = 2 := Option.some.inj (hn.symm.trans hlate)
  have hnone : (soloEnd clockForward (locked 5 5)).locking.log.drop 2 = [] := by decide +kernel
  have hstill := hopen (by simp [hnone]) (Newest.Planner.stable IasqlAuditLog.ts)
  revert hstill
  decide +kernel

theorem untied_close_releases : Released (soloEnd untied (locked 5 6)) () ∧
    isOpenTransaction (Newest.Planner.stable IasqlAuditLog.ts)
      (soloEnd untied (locked 5 6)).locking.log = false :=
  ⟨released_of_untied (soloEnd_run (by decide +kernel)) (), by decide +kernel⟩

end Tie

end Iasql
