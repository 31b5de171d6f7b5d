import Iasql.Calculus.Runs
import Iasql.Reference
import Iasql.Revert

namespace Iasql

open Runs Views

section Changes

variable (pg : Postgres) (cat : Catalog) (lk : Lookup) (links : Links pg) (fuel : Nat)

-- the kept columns of r are written as texts that stand for r's values in db
structure Stands (db : Db) (text : AugmentedValue → Literal) (t : String) (r : Row) : Prop where
  keepsOne : ∃ c, keeps pg cat t r c = true
  names : ∀ c, keeps pg cat t r c = true → Names cat pg lk links db text fuel t c (r c) (r c)
  plain : ∀ c, keeps pg cat t r c = false → (pg.column t c).isSome = true → r c ≠ .null →
    referenceOf cat t c (r c) = none

structure Insertable (db : Db) (t : String) (r : Row) : Prop where
  stands : Stands pg cat lk links fuel db AugmentedValue.assigned t r
  kept : ∀ c, keeps pg cat t r c = true → pg.isGenerated t c = false
  issued : ∀ c, pg.isGenerated t c = true → (r c).truthy = true ∧ ¬ InUse links db (t, c) (r c)
  default : ∀ c, keeps pg cat t r c = false → pg.isGenerated t c = false →
    pg.defaultOf db t c = r c ∧ (links.kind t c = none ∨ r c = .null)

structure Deletable (db : Db) (t : String) (i : Nat) (r : Row) : Prop where
  stands : Stands pg cat lk links fuel db AugmentedValue.compared t r
  alone : ∀ j x, j ≠ i → (db t)[j]? = some x → carries pg cat t r x = false

structure Updatable (db : Db) (t : String) (i : Nat) (r r' : Row) : Prop where
  stands : Stands pg cat lk links fuel db AugmentedValue.compared t r
  becomes : Stands pg cat lk links fuel db AugmentedValue.assigned t r'
  unkept : ∀ c, keeps pg cat t r' c = false → r' c = r c
  alone : ∀ j x, j ≠ i → (db t)[j]? = some x → carries pg cat t r x = true →
    carries pg cat t r' x = true

def Replayable (db : Db) : RowChange → Prop
  | .insert t values => Insertable pg cat lk links fuel db t (rowOf pg t values)
  | .delete t i => ∀ r, (db t)[i]? = some r → Deletable pg cat lk links fuel db t i r
  | .update t i values => ∀ r, (db t)[i]? = some r →
    Updatable pg cat lk links fuel db t i r (rowOf pg t values)

-- the sequences of e give ids that e does not use
def FreshFor (e : Db) : Statement → Prop
  | .insert t _ => ∀ c, pg.isGenerated t c = true →
    (pg.fresh e t c).truthy = true ∧ ¬ InUse links e (t, c) (pg.fresh e t c)
  | _ => True

variable {pg cat lk links fuel} {t : String} {i : Nat} {r r' : Row} {d e db : Db} {ρ : Renaming}
variable {text : AugmentedValue → Literal} {es : List AugmentedValue}

theorem Stands.generates (h : Stands pg cat lk links fuel db text t r) (htext : text ∈ texts) :
    ∃ es, keptEntries pg cat lk true fuel t r = some es := by
  obtain ⟨all, hall⟩ : ∃ all, augmentEntries cat lk true fuel t (some (rowJson pg t r)) = some all := by
    refine mapM_of_isSome fun p hp => ?_
    obtain ⟨c, v⟩ := p
    obtain ⟨hmem, hne⟩ := List.mem_filter.mp hp
    obtain ⟨hcol, rfl⟩ := mem_rowJson.mp hmem
    have hv : r c ≠ .null := by simpa using hne
    cases hkeeps : keeps pg cat t r c with
    | true =>
      obtain ⟨a, ha⟩ := (h.names c hkeeps).written htext
      exact ⟨a, ha.augmented⟩
    | false =>
      obtain ⟨a, ha⟩ := augmentValue_isSome cat {} 0 t c (r c)
      exact ⟨a, (augmentValue_text (h.plain c hkeeps hcol hv)).trans ha⟩
  exact ⟨_, by rw [keptEntries, hall]; rfl⟩

theorem Stands.written (h : Stands pg cat lk links fuel db text t r) (htext : text ∈ texts)
    (hes : keptEntries pg cat lk true fuel t r = some es) :
    ∀ a ∈ es, Written pg cat lk links db text fuel t a.key (r a.key) (r a.key) a := by
  intro a ha
  have hmentions := (mem_keptEntries hes).mp ha
  obtain ⟨a', ha'⟩ := (h.names a.key hmentions.keeps).written htext
  have heq : a = a' := Option.some.inj (hmentions.augmented.symm.trans ha'.augmented)
  subst heq
  exact ha'

theorem Stands.reads_renamed (h : Stands pg cat lk links fuel d text t r) (htext : text ∈ texts)
    (hes : keptEntries pg cat lk true fuel t r = some es) (hren : Renamed links ρ e d) :
    ∀ a ∈ es, pg.evalLiteral e t a.key (text a) = some (renamedRow links ρ t r a.key) := by
  intro a ha
  have hwritten := h.written htext hes a ha
  exact evalLiteral_renamed hren (text a) hwritten.linked hwritten.reads

theorem Stands.keepsOne_renamed (h : Stands pg cat lk links fuel d text t r) :
    ∃ c, keeps pg cat t (renamedRow links ρ t r) c = true := by
  obtain ⟨c, hc⟩ := h.keepsOne
  exact ⟨c, by rw [keeps_renamed, hc]⟩

theorem Stands.inUse (h : Stands pg cat lk links fuel d text t r) (htext : text ∈ texts)
    (c : String) (hc : keeps pg cat t r c = true) :
    ∀ k, links.kind t c = some k → InUse links d k (r c) := by
  obtain ⟨a, ha⟩ := (h.names c hc).written htext
  exact ha.inUse

theorem deleteRows_eq (hr : (d t)[i]? = some r)
    (halone : ∀ j x, j ≠ i → (d t)[j]? = some x → carries pg cat t r x = false) :
    deleteRows pg cat t r d = Function.update d t ((d t).eraseIdx i) := by
  rw [deleteRows, filter_eq_eraseIdx hr]
  · rw [carries_self]
    rfl
  · intro j x hj hx
    rw [halone j x hj hx]
    rfl

theorem updateRows_eq (hr : (d t)[i]? = some r)
    (hunkept : ∀ c, keeps pg cat t r' c = false → r' c = r c)
    (halone : ∀ j x, j ≠ i → (d t)[j]? = some x → carries pg cat t r x = true →
      carries pg cat t r' x = true) :
    updateRows pg cat t r r' d = Function.update d t ((d t).set i r') := by
  rw [updateRows, map_eq_set hr]
  · rw [updatedRow, carries_self, if_pos rfl]
    funext c
    cases hk : keeps pg cat t r' c with
    | true => exact overlay_of_keeps hk
    | false => rw [overlay_of_not_keeps hk, hunkept c hk]
  · intro j x hj hx
    unfold updatedRow
    split
    · next hcarries => exact overlay_of_carries (halone j x hj hx hcarries)
    · rfl

theorem replayed {ts j : Nat} {user : String} {change : RowChange} {row : IasqlAuditLog} {d' : Db}
    (happly : applyChange pg ts user d change = some (d', row))
    (hreplay : Replayable pg cat lk links fuel d change) :
    ∃ q, recreateQuery cat lk false true fuel { row with id := j } = some (some q) ∧
      ∀ ρ e, Renamed links ρ e d → FreshFor pg links e q →
        ∃ e' ρ', pg.effect e q = some e' ∧ Renamed links ρ' e' d' := by
  have hassigned : AugmentedValue.assigned ∈ texts := by simp [texts]
  have hcompared : AugmentedValue.compared ∈ texts := by simp [texts]
  cases change with
  | insert t values =>
    cases happly
    have hr : Insertable pg cat lk links fuel d t (rowOf pg t values) := hreplay
    obtain ⟨es, hes⟩ := hr.stands.generates hassigned
    refine ⟨.insert t (assignments es), by rw [recreateQuery_insert, hes]; rfl, ?_⟩
    intro ρ e hren hfresh
    have heffect := (entries_renamed links ρ (entries_of_kept hes)).effect_insert
      hr.stands.keepsOne_renamed (hr.stands.reads_renamed hassigned hes hren)
    obtain ⟨ρ', hren'⟩ := hren.insertRow (r := rowOf pg t values)
      (fun c hc => ⟨hr.kept c hc, hr.stands.inUse hassigned c hc⟩) hr.issued hfresh hr.default
    exact ⟨_, ρ', heffect, hren'⟩
  | delete t i =>
    obtain ⟨r, hr, heq⟩ := Option.map_eq_some_iff.mp happly
    cases heq
    have hdel : Deletable pg cat lk links fuel d t i r := hreplay r hr
    obtain ⟨es, hes⟩ := hdel.stands.generates hcompared
    refine ⟨.delete t (conditions es), by rw [recreateQuery_delete, hes]; rfl, ?_⟩
    intro ρ e hren _
    have heffect := (entries_renamed links ρ (entries_of_kept hes)).effect_delete
      hdel.stands.keepsOne_renamed (hdel.stands.reads_renamed hcompared hes hren)
    exact ⟨_, ρ, heffect, deleteRows_eq hr hdel.alone ▸ hren.deleteRows⟩
  | update t i values =>
    obtain ⟨r, hr, heq⟩ := Option.map_eq_some_iff.mp happly
    cases heq
    have hupd : Updatable pg cat lk links fuel d t i r (rowOf pg t values) := hreplay r hr
    obtain ⟨es, hes⟩ := hupd.stands.generates hcompared
    obtain ⟨es', hes'⟩ := hupd.becomes.generates hassigned
    refine ⟨.update t (assignments es') (conditions es),
      by rw [recreateQuery_update, hes, hes']; rfl, ?_⟩
    intro ρ e hren _
    have heffect := (entries_renamed links ρ (entries_of_kept hes)).effect_update
      hupd.stands.keepsOne_renamed (entries_renamed links ρ (entries_of_kept hes'))
      hupd.becomes.keepsOne_renamed (hupd.becomes.reads_renamed hassigned hes' hren)
      (hupd.stands.reads_renamed hcompared hes hren)
    exact ⟨_, ρ, heffect, updateRows_eq hr hupd.unkept hupd.alone ▸ hren.updateRows⟩

end Changes

section Log

variable {cat : Catalog} {lk : Lookup} {inverse sub : Bool} {fuel : Nat} {cfg : Config}
variable {pl : LogPlanner} {log rows changes : List IasqlAuditLog} {row : IasqlAuditLog}
variable {transactionId : Option String}

theorem orderedInsert_append {α : Type} {r : α → α → Prop} [DecidableRel r] {a b : α} (h : r a b)
    (l : List α) : (l ++ [b]).orderedInsert r a = l.orderedInsert r a ++ [b] := by
  induction l with
  | nil => simp [h]
  | cons c l ih =>
    rw [List.cons_append, List.orderedInsert_cons, List.orderedInsert_cons, ih]
    split <;> rfl

theorem oldestFirst_append (h : ∀ l ∈ log, l.ts ≤ row.ts ∧ l.id < row.id) :
    oldestFirst (log ++ [row]) = oldestFirst log ++ [row] := by
  induction log with
  | nil => rfl
  | cons l log ih =>
    have hrest := ih fun m hm => h m (by simp [hm])
    have hl := h l (by simp)
    have hearlier : l.ts < row.ts ∨ l.ts = row.ts ∧ l.id ≤ row.id := by omega
    unfold oldestFirst at hrest ⊢
    rw [List.cons_append, List.insertionSort_cons, hrest, List.insertionSort_cons]
    exact orderedInsert_append
      (r := fun a b : IasqlAuditLog => a.ts < b.ts ∨ (a.ts = b.ts ∧ a.id ≤ b.id)) hearlier _

theorem oldestFirst_associated :
    oldestFirst (log.map (associated changes transactionId)) =
      (oldestFirst log).map (associated changes transactionId) := by
  have hsame : ∀ a ∈ log, ∀ b ∈ log, (a.ts < b.ts ∨ (a.ts = b.ts ∧ a.id ≤ b.id)) ↔
      ((associated changes transactionId a).ts < (associated changes transactionId b).ts ∨
        ((associated changes transactionId a).ts = (associated changes transactionId b).ts ∧
          (associated changes transactionId a).id ≤ (associated changes transactionId b).id)) := by
    simp
  exact (List.map_insertionSort _ (fun a b : IasqlAuditLog =>
    a.ts < b.ts ∨ (a.ts = b.ts ∧ a.id ≤ b.id)) _ log hsame).symm

theorem recreateQuery_associated :
    recreateQuery cat lk inverse sub fuel (associated changes transactionId row) =
      recreateQuery cat lk inverse sub fuel row := by
  simp [recreateQuery]

theorem recreateQueries_associated :
    recreateQueries cat lk inverse sub fuel (rows.map (associated changes transactionId)) =
      recreateQueries cat lk inverse sub fuel rows := by
  induction rows with
  | nil => rfl
  | cons row rows ih => simp [recreateQueries, recreateQuery_associated, ih]

theorem tablesKnown_associated :
    tablesKnown cat (rows.map (associated changes transactionId)) = tablesKnown cat rows := by
  simp [tablesKnown, Function.comp_def]

theorem filter_associated {id : String} {since : Nat} (hid : id ≠ "")
    (hengine : ∀ l ∈ log, l.changeType.isRowChange = true → since < l.ts → l.user ≠ cfg.dbUser)
    (hnew : ∀ l ∈ log, l.changeType.isRowChange = true → l.transactionId ≠ some id)
    (hchanges : ∀ l ∈ log, l.changeType.isRowChange = true → l.user ≠ cfg.dbUser →
      (changes.any (·.id == l.id) = true ↔ since < l.ts)) :
    ((log.map (associated changes (some id))).filter fun l =>
      l.changeType.isRowChange && l.transactionId == some id && l.user != cfg.dbUser) =
      (log.filter fun l => l.changeType.isRowChange && decide (since < l.ts)).map
        (associated changes (some id)) := by
  rw [List.filter_map]
  refine congrArg _ (List.filter_congr fun l hl => ?_)
  simp only [Function.comp_apply, associated_changeType, associated_user]
  cases hrow : l.changeType.isRowChange with
  | false => rfl
  | true =>
    simp only [Bool.true_and]
    have hassociated : ((associated changes (some id) l).transactionId == some id) =
        changes.any (·.id == l.id) := by
      unfold associated
      split
      · next hany => simp [nonEmpty, hid, hany]
      · next hany =>
        have hnone := hnew l hl hrow
        simp [hnone, Bool.eq_false_iff.mpr hany]
    rw [hassociated, Bool.eq_iff_iff]
    simp only [Bool.and_eq_true, bne_iff_ne, decide_eq_true_eq]
    constructor
    · rintro ⟨hany, huser⟩
      exact (hchanges l hl hrow huser).mp hany
    · intro hlate
      have huser := hengine l hl hrow hlate
      exact ⟨(hchanges l hl hrow huser).mpr hlate, huser⟩

end Log

section Transactions

variable (pg : Postgres) (cat : Catalog) (lk : Lookup) (links : Links pg) (fuel : Nat)
variable (cfg : Config) (pl : LogPlanner) (id : String) (since : Nat)

inductive ReplayPhase where
  | recording
  | associated
  | running (queries : List Statement)

-- the users change source; the statements run in target
structure Replaying where
  before : Db
  source : Db
  target : Db
  auditLog : List IasqlAuditLog
  phase : ReplayPhase := .recording

inductive ReplayAction where
  | change (ts : Nat) (user : String) (change : RowChange)
  | associate (changes : List IasqlAuditLog)
  | getSql (transactionId : Option String)
  | execute

namespace Replaying

def changed (s : Replaying) (ts : Nat) (user : String) (change : RowChange) : Option Replaying :=
  (applyChange pg ts user s.source change).map fun (source, row) =>
    { s with source, auditLog := saveLog s.auditLog row }

def generated (s : Replaying) (transactionId : Option String) : Option Replaying := do
  let changeLogs ← getUserChangeLogsByTransaction cfg pl s.auditLog transactionId
  if tablesKnown cat changeLogs then
    let queries ← recreateQueries cat lk false true fuel changeLogs
    return { s with phase := .running queries }
  else none

-- an error in one statement ends the block they run in
def step (s : Replaying) (a : ReplayAction) : Option Replaying :=
  match s.phase, a with
  | .recording, .change ts user change => s.changed pg ts user change
  | .recording, .associate changes =>
    some { s with auditLog := associateTransaction s.auditLog changes (some id), phase := .associated }
  | .associated, .getSql transactionId => s.generated cat lk fuel cfg pl transactionId
  | .running (q :: qs), .execute =>
    (pg.execute s.target q).map fun target => { s with target, phase := .running qs }
  | _, _ => none

-- no row change after since, none of the transaction, and the same rows in both databases
structure Started (s : Replaying) : Prop where
  source : s.source = s.before
  target : ∃ ρ, Renamed links ρ s.target s.before
  recording : s.phase = .recording
  unrecorded : ∀ l ∈ s.auditLog, l.changeType.isRowChange = true →
    l.ts ≤ since ∧ l.transactionId ≠ some id

structure Recordable (s : Replaying) (ts : Nat) (user : String) (change : RowChange) : Prop where
  replayable : Replayable pg cat lk links fuel s.source change
  known : (cat.mapperEntities change.table).isSome = true
  users : user ≠ cfg.dbUser
  later : since < ts
  ordered : ∀ l ∈ s.auditLog, l.changeType.isRowChange = true → l.ts ≤ ts

def Allowed (s : Replaying) : ReplayAction → Prop
  | .change ts user change => s.Recordable pg cat lk links fuel cfg since ts user change
  | .associate changes => id ≠ "" ∧ ∀ l ∈ s.auditLog, l.changeType.isRowChange = true →
    l.user ≠ cfg.dbUser → (changes.any (·.id == l.id) = true ↔ since < l.ts)
  | .getSql transactionId => transactionToGet pl s.auditLog transactionId = some id
  | .execute => ∀ q qs, s.phase = .running (q :: qs) → FreshFor pg links s.target q ∧
    ∀ db, pg.effect s.target q = some db → pg.rejects s.target db = false

end Replaying

-- the rows of a transaction that brings its database to final
inductive Transacts (final : Db) : Db → List IasqlAuditLog → Prop
  | done : Transacts final final []
  | change {rows d d' ts user change row i} : Replayable pg cat lk links fuel d change →
    (cat.mapperEntities change.table).isSome = true →
    applyChange pg ts user d change = some (d', row) →
    Transacts final d' rows → Transacts final d ({ row with id := i } :: rows)

structure Recording (s : Replaying) (rows : List IasqlAuditLog) : Prop where
  transacts : Transacts pg cat lk links fuel s.source s.before rows
  target : ∃ ρ, Renamed links ρ s.target s.before
  rows : oldestFirst (s.auditLog.filter fun l =>
    l.changeType.isRowChange && decide (since < l.ts)) = rows
  users : ∀ l ∈ s.auditLog, l.changeType.isRowChange = true → since < l.ts → l.user ≠ cfg.dbUser
  new : ∀ l ∈ s.auditLog, l.changeType.isRowChange = true → l.transactionId ≠ some id

structure Associated (s : Replaying) (rows : List IasqlAuditLog) : Prop where
  transacts : Transacts pg cat lk links fuel s.source s.before rows
  target : ∃ ρ, Renamed links ρ s.target s.before
  changeLogs : ∀ transactionId, transactionToGet pl s.auditLog transactionId = some id →
    ∃ changes, getUserChangeLogsByTransaction cfg pl s.auditLog transactionId =
      some (rows.map (Iasql.associated changes (some id)))

def Replaying.Inv (s : Replaying) : Prop :=
  ∃ rows, match s.phase with
    | .recording => Recording pg cat lk links fuel cfg id since s rows
    | .associated => Associated pg cat lk links fuel cfg pl id s rows
    | .running queries => recreateQueries cat lk false true fuel rows = some queries ∧
      ∃ d ρ, Transacts pg cat lk links fuel s.source d rows ∧ Renamed links ρ s.target d

variable {pg cat lk links fuel cfg pl id since} {s s' : Replaying} {a : ReplayAction}
variable {final mid d : Db} {rows : List IasqlAuditLog}

theorem Transacts.snoc {ts i : Nat} {user : String} {change : RowChange} {row : IasqlAuditLog}
    (h : Transacts pg cat lk links fuel mid d rows)
    (hreplay : Replayable pg cat lk links fuel mid change)
    (hknown : (cat.mapperEntities change.table).isSome = true)
    (happly : applyChange pg ts user mid change = some (final, row)) :
    Transacts pg cat lk links fuel final d (rows ++ [{ row with id := i }]) := by
  induction h with
  | done => exact .change hreplay hknown happly .done
  | change hreplay' hknown' happly' _ ih => exact .change hreplay' hknown' happly' ih

theorem Transacts.generates (h : Transacts pg cat lk links fuel final d rows) :
    tablesKnown cat rows = true ∧
      ∃ queries, recreateQueries cat lk false true fuel rows = some queries := by
  induction h with
  | done => exact ⟨rfl, [], rfl⟩
  | @change rows d d' ts user change row i hreplay hknown happly _ ih =>
    obtain ⟨hall, queries, hqueries⟩ := ih
    obtain ⟨q, hq, -⟩ := replayed (j := i) happly hreplay
    have htable := (applyChange_row happly).2.1
    refine ⟨?_, q :: queries, ?_⟩
    · simpa [tablesKnown, htable, hknown] using hall
    · simp [recreateQueries, hq, hqueries]

theorem Recording.changed {ts : Nat} {user : String} {change : RowChange}
    (h : Recording pg cat lk links fuel cfg id since s rows)
    (hok : s.Recordable pg cat lk links fuel cfg since ts user change)
    (hstep : s.changed pg ts user change = some s') :
    ∃ row, Recording pg cat lk links fuel cfg id since s' (rows ++ [row]) ∧ s'.phase = s.phase := by
  obtain ⟨⟨source, row⟩, happly, rfl⟩ := Option.map_eq_some_iff.mp hstep
  obtain ⟨rfl, -, htype⟩ := applyChange_row happly
  obtain ⟨huser, htx⟩ := applyChange_user happly
  refine ⟨{ row with id := nextId s.auditLog }, ?_, rfl⟩
  have hmem : ∀ {p : IasqlAuditLog → Prop}, (∀ l ∈ s.auditLog, p l) →
      p { row with id := nextId s.auditLog } → ∀ l ∈ saveLog s.auditLog row, p l := by
    intro p hold hnew l hl
    rcases List.mem_append.mp hl with hl | hl
    · exact hold l hl
    · rw [List.mem_singleton.mp hl]
      exact hnew
  exact {
    transacts := h.transacts.snoc hok.replayable hok.known happly
    target := h.target
    rows := by
      have hkept : (row.changeType.isRowChange && decide (since < row.ts)) = true := by
        simpa [htype] using hok.later
      have hlast : [{ row with id := nextId s.auditLog }].filter
          (fun l => l.changeType.isRowChange && decide (since < l.ts)) =
            [{ row with id := nextId s.auditLog }] := List.filter_cons_of_pos hkept
      change oldestFirst ((saveLog s.auditLog row).filter _) = _
      rw [saveLog, List.filter_append, hlast, oldestFirst_append, h.rows]
      intro l hl
      obtain ⟨hl, hrec⟩ := List.mem_filter.mp hl
      simp only [Bool.and_eq_true] at hrec
      exact ⟨hok.ordered l hl hrec.1, lt_nextId l hl⟩
    users := hmem h.users fun _ _ => huser ▸ hok.users
    new := hmem h.new fun _ => by simp [htx] }

theorem Recording.associate {changes : List IasqlAuditLog}
    (h : Recording pg cat lk links fuel cfg id since s rows) (hid : id ≠ "")
    (hchanges : ∀ l ∈ s.auditLog, l.changeType.isRowChange = true → l.user ≠ cfg.dbUser →
      (changes.any (·.id == l.id) = true ↔ since < l.ts)) :
    Associated pg cat lk links fuel cfg pl id
      { s with auditLog := associateTransaction s.auditLog changes (some id), phase := .associated }
      rows where
  transacts := h.transacts
  target := h.target
  changeLogs transactionId ht := by
    refine ⟨changes, ?_⟩
    rw [getUserChangeLogsByTransaction, ht, Option.map_some, associateTransaction,
      filter_associated hid h.users h.new hchanges, oldestFirst_associated, h.rows]

theorem Replaying.Inv.step (h : s.Inv pg cat lk links fuel cfg pl id since)
    (hok : s.Allowed pg cat lk links fuel cfg pl id since a)
    (hstep : s.step pg cat lk fuel cfg pl id a = some s') :
    s'.Inv pg cat lk links fuel cfg pl id since := by
  obtain ⟨rows, h⟩ := h
  unfold Replaying.step at hstep
  split at hstep
  · next ts user change hphase =>
    rw [hphase] at h
    obtain ⟨row, hrec, hphase'⟩ := h.changed hok hstep
    refine ⟨rows ++ [row], ?_⟩
    rw [hphase', hphase]
    exact hrec
  · next changes hphase =>
    rw [hphase] at h
    cases hstep
    exact ⟨rows, h.associate hok.1 hok.2⟩
  · next transactionId hphase =>
    rw [hphase] at h
    obtain ⟨changes, hlogs⟩ := h.changeLogs transactionId hok
    obtain ⟨hknown, queries, hqueries⟩ := h.transacts.generates
    obtain ⟨ρ, hren⟩ := h.target
    simp only [Replaying.generated, hlogs, tablesKnown_associated, hknown,
      recreateQueries_associated, hqueries, Option.bind_eq_bind, Option.bind_some, ↓reduceIte,
      Option.pure_def, Option.some.injEq] at hstep
    subst hstep
    exact ⟨rows, hqueries, s.before, ρ, h.transacts, hren⟩
  · next q qs hphase =>
    rw [hphase] at h
    obtain ⟨hqueries, d, ρ, htrans, hren⟩ := h
    obtain ⟨target, hexec, rfl⟩ := Option.map_eq_some_iff.mp hstep
    cases htrans with
    | done => cases hqueries
    | @change rows d d' ts user change row i hreplay hknown happly hrest =>
      obtain ⟨q', hq, hruns⟩ := replayed (j := i) happly hreplay
      obtain ⟨-, queries, hqs⟩ := hrest.generates
      simp only [recreateQueries, hq, hqs, Option.bind_eq_bind, Option.bind_some,
        Option.pure_def, Option.toList_some, Option.some.injEq, List.singleton_append,
        List.cons.injEq] at hqueries
      obtain ⟨rfl, rfl⟩ := hqueries
      obtain ⟨hfresh, haccepts⟩ := hok q' queries hphase
      obtain ⟨e', ρ', heffect, hren'⟩ := hruns ρ s.target hren hfresh
      have htarget : target = e' := by
        simpa [Postgres.execute, heffect, haccepts e' heffect] using hexec.symm
      subst htarget
      exact ⟨rows, hqs, d', ρ', hrest, hren'⟩
  · cases hstep

theorem Replaying.Started.inv (h : s.Started pg links id since) :
    s.Inv pg cat lk links fuel cfg pl id since := by
  refine ⟨[], ?_⟩
  rw [h.recording]
  have hlate : ∀ l ∈ s.auditLog, (l.changeType.isRowChange && decide (since < l.ts)) = false := by
    intro l hl
    cases hrow : l.changeType.isRowChange with
    | false => rfl
    | true =>
      have hts := (h.unrecorded l hl hrow).1
      simp only [Bool.true_and, decide_eq_false_iff_not]
      omega
  have hempty : (s.auditLog.filter fun l => l.changeType.isRowChange && decide (since < l.ts)) = [] :=
    List.filter_eq_nil_iff.mpr fun l hl => by simp [hlate l hl]
  exact {
    transacts := h.source ▸ .done
    target := h.target
    rows := by rw [hempty]; rfl
    users := fun l hl hrow hts => by
      have := hlate l hl
      simp [hrow, hts] at this
    new := fun l hl hrow => (h.unrecorded l hl hrow).2 }

abbrev Replays (pg : Postgres) (cat : Catalog) (lk : Lookup) (links : Links pg) (fuel : Nat)
    (cfg : Config) (pl : LogPlanner) (id : String) (since : Nat)
    (allowed : Replaying → ReplayAction → Prop) : Replaying → Prop :=
  RunFrom (Replaying.Started pg links id since)
    (fun s a s' => s.step pg cat lk fuel cfg pl id a = some s') allowed

section Replayed

theorem vpc_generated : ∀ t c, vpcPostgres.isGenerated t c = true →
    (if t = "vpc" ∧ c = "id" then some ("vpc", "id") else none) = some (t, c) := by
  intro t c h
  by_cases ht : t = "vpc"
  · subst ht
    obtain ⟨d, hd, hgen⟩ : ∃ d, vpcPostgres.column "vpc" c = some d ∧ d.generated = true := by
      unfold Postgres.isGenerated at h
      cases hd : vpcPostgres.column "vpc" c with
      | none => simp [hd] at h
      | some d => exact ⟨d, rfl, by simpa [hd] using h⟩
    have hname : d.name = c := by simpa using List.find?_some hd
    have hall : ∀ d ∈ vpcPostgres.columns "vpc", d.generated = true → d.name = "id" := by
      decide +kernel
    have hid : c = "id" := hname ▸ hall d (List.mem_of_find?_eq_some hd) hgen
    simp [hid]
  · simp [Postgres.isGenerated, Postgres.column, vpcPostgres, ht] at h

theorem vpc_source : ∀ (t c : String) (k : String × String),
    (if t = "vpc" ∧ c = "id" then some ("vpc", "id") else none) = some k →
      vpcPostgres.isGenerated k.1 k.2 = true := by
  intro t c k h
  split at h
  · cases h
    decide +kernel
  · cases h

def vpcLinks : Links vpcPostgres where
  kind t c := if t = "vpc" ∧ c = "id" then some ("vpc", "id") else none
  generated := vpc_generated
  source := vpc_source

def vpcTable (cidrBlock : String) (tags : JsVal) : Db := fun t =>
  if t = "vpc" then [rowOf vpcPostgres "vpc" (vpcColumnsOf 1 cidrBlock tags)] else []

def iasqlDbConfig : Config where
  dbUser := "iasql"
  version := "0.0.1"

def vpcStarted (db : Db) : Replaying where
  before := db
  source := db
  target := db
  auditLog := [{ ts := 1, user := "iasql", tableName := "iasql_audit_log",
                 changeType := .openTransaction, transactionId := some "tx" }]

def vpcReplayStep (s : Replaying) (a : ReplayAction) : Replaying :=
  (s.step vpcPostgres vpcCatalog {} 0 iasqlDbConfig vpcPlanner "tx" a).getD s

def vpcChangedBy (db : Db) (change : RowChange) : Replaying :=
  vpcReplayStep (vpcStarted db) (.change 2 "user" change)

def vpcAssociated (db : Db) (change : RowChange) : Replaying :=
  vpcReplayStep (vpcChangedBy db change) (.associate (vpcChangedBy db change).auditLog)

def vpcGenerated (db : Db) (change : RowChange) : Replaying :=
  vpcReplayStep (vpcAssociated db change) (.getSql none)

def vpcReplayed (db : Db) (change : RowChange) : Replaying :=
  vpcReplayStep (vpcGenerated db change) .execute

def tagsCleared : RowChange := .update "vpc" 0 (vpcColumnsOf 1 "10.0.0.0/16" .null)

def vpcMoved : RowChange := .update "vpc" 0 (vpcColumnsOf 1 "10.1.0.0/16" .null)

theorem vpc_replays {allowed : Replaying → ReplayAction → Prop} {db : Db} {change : RowChange}
    (hchange : allowed (vpcStarted db) (.change 2 "user" change))
    (hassociate : allowed (vpcChangedBy db change) (.associate (vpcChangedBy db change).auditLog))
    (hget : allowed (vpcAssociated db change) (.getSql none))
    (hexecute : allowed (vpcGenerated db change) .execute)
    (hsteps : (((vpcStarted db).step vpcPostgres vpcCatalog {} 0 iasqlDbConfig vpcPlanner "tx"
        (.change 2 "user" change)).isSome &&
      ((vpcChangedBy db change).step vpcPostgres vpcCatalog {} 0 iasqlDbConfig vpcPlanner "tx"
        (.associate (vpcChangedBy db change).auditLog)).isSome &&
      ((vpcAssociated db change).step vpcPostgres vpcCatalog {} 0 iasqlDbConfig vpcPlanner "tx"
        (.getSql none)).isSome &&
      ((vpcGenerated db change).step vpcPostgres vpcCatalog {} 0 iasqlDbConfig vpcPlanner "tx"
        .execute).isSome) = true) :
    Replays vpcPostgres vpcCatalog {} vpcLinks 0 iasqlDbConfig vpcPlanner "tx" 1 allowed
      (vpcReplayed db change) := by
  simp only [Bool.and_eq_true] at hsteps
  obtain ⟨⟨⟨hchanged, hassociated⟩, hgenerated⟩, hexecuted⟩ := hsteps
  have hstarted : Replays vpcPostgres vpcCatalog {} vpcLinks 0 iasqlDbConfig vpcPlanner "tx" 1 allowed
      (vpcStarted db) := by
    refine .start ⟨rfl, ⟨.same, fun t => ?_⟩, rfl, ?_⟩
    · refine List.Perm.of_eq (List.map_congr_left fun r _ => funext fun c => ?_)
      simp only [renamedRow, id_eq]
      cases vpcLinks.kind t c <;> rfl
    · simp [vpcStarted, AuditLogChangeType.isRowChange]
  exact (((hstarted.nextGetD hchange hchanged).nextGetD hassociate hassociated).nextGetD
    hget hgenerated).nextGetD hexecute hexecuted

theorem all_executed {db : Db} {change : RowChange}
    (h : (match (vpcReplayed db change).phase with
      | .running queries => queries.isEmpty
      | _ => false) = true) : (vpcReplayed db change).phase = .running [] := by
  split at h
  · next queries hphase => rw [hphase, List.isEmpty_iff.mp h]
  · cases h

theorem not_renamed {pg : Postgres} {links : Links pg} {e d : Db} (t c : String)
    (hkind : links.kind t c = none)
    (h : ¬ ((e t).map fun r => r c).Perm ((d t).map fun r => r c)) :
    ¬ ∃ ρ, Renamed links ρ e d := by
  rintro ⟨ρ, hren⟩
  have hperm := List.Perm.map (fun r => r c) (hren t)
  rw [List.map_map, List.map_map] at hperm
  have hrow : ((fun r : Row => r c) ∘ renamedRow links ρ t) = fun r => r c := by
    funext r
    simp [renamedRow, hkind, Renaming.value]
  rw [hrow] at hperm
  exact h hperm

theorem vpc_referenceOf (c : String) (v : JsVal) : referenceOf vpcCatalog "vpc" c v = none := by
  have hplain : ∀ col ∈ vpcEntity.ownColumns, col.relation = none := by decide +kernel
  have hown : ownReference vpcCatalog (columnNamed c vpcEntity.ownColumns) = none := by
    unfold ownReference
    cases hcol : columnNamed c vpcEntity.ownColumns with
    | none => rfl
    | some col =>
      have hmem := (List.mem_filter.mp (List.mem_of_getLast? hcol)).1
      simp [refer, hplain col hmem]
  unfold referenceOf
  split
  · rfl
  · exact hown

theorem vpc_stands {db : Db} {text : AugmentedValue → Literal} {r : Row}
    (htext : text = AugmentedValue.assigned ∨ text = AugmentedValue.compared)
    (hcidr : keeps vpcPostgres vpcCatalog "vpc" r "cidr_block" = true)
    (hid : keeps vpcPostgres vpcCatalog "vpc" r "id" = false) :
    Stands vpcPostgres vpcCatalog {} vpcLinks 0 db text "vpc" r where
  keepsOne := ⟨"cidr_block", hcidr⟩
  names c hc := by
    have hkind : vpcLinks.kind "vpc" c = none := by
      have hne : c ≠ "id" := by
        rintro rfl
        rw [hid] at hc
        cases hc
      simp [vpcLinks, hne]
    refine .text (vpc_referenceOf c (r c)) hkind fun a ha db => ?_
    rcases htext with rfl | rfl
    · exact (readBack_evalLiteral ha).1
    · exact (readBack_evalLiteral ha).2
  plain c _ _ _ := vpc_referenceOf c (r c)

def updatesFirst : ReplayPhase → Bool
  | .running (.update _ _ _ :: _) => true
  | _ => false

end Replayed

end Transactions

end Iasql
