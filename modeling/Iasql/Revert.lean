import Iasql.Calculus.Runs
import Iasql.Calculus.Views
import Iasql.History

namespace Iasql

open Runs Views

section Rows

variable (pg : Postgres) (cat : Catalog)

def showsColumn (t c : String) : Bool := (pg.column t c).isSome && !pg.isGenerated t c

-- a row without the values of its auto-generated columns
def shown (t : String) (r : Row) : Row := fun c => if showsColumn pg t c then r c else .null

def SameRows (d db : Db) : Prop := ∀ t, Agree (shown pg t) (shown pg t) (d t) (db t)

def Readable (text : AugmentedValue → Literal) (t : String) (r : Row) : Prop :=
  (∃ c, keeps pg cat t r c = true) ∧ ∀ c a, keeps pg cat t r c = true →
    augmentValue cat {} false 0 t c (r c) = some a →
      ∀ db, pg.evalLiteral db t c (text a) = some (r c)

def KeepsShown (t : String) (r : Row) : Prop :=
  ∀ c, keeps pg cat t r c = true → showsColumn pg t c = true

def Revertible (db : Db) : RowChange → Prop
  | .insert t values =>
    Readable pg cat AugmentedValue.compared t (rowOf pg t values) ∧
      KeepsShown pg cat t (rowOf pg t values) ∧
      ∀ x ∈ db t, carries pg cat t (rowOf pg t values) x = false
  | .delete t i => ∀ r, (db t)[i]? = some r →
    Readable pg cat AugmentedValue.assigned t r ∧
      ∀ c, showsColumn pg t c = true → keeps pg cat t r c = false → pg.defaultOf db t c = r c
  | .update t i values => ∀ r, (db t)[i]? = some r →
    Readable pg cat AugmentedValue.assigned t r ∧
      Readable pg cat AugmentedValue.compared t (rowOf pg t values) ∧
      KeepsShown pg cat t (rowOf pg t values) ∧
      (∀ c, showsColumn pg t c = true → keeps pg cat t r c = false → rowOf pg t values c = r c) ∧
      ∀ j x, j ≠ i → (db t)[j]? = some x → carries pg cat t (rowOf pg t values) x = true →
        carries pg cat t r x = true

variable {pg cat} {t : String} {r r' x : Row} {d db db' : Db}

theorem generated_of_shown {c : String} (h : showsColumn pg t c = true) :
    pg.isGenerated t c = false := by
  simp only [showsColumn, Bool.and_eq_true, Bool.not_eq_true'] at h
  exact h.2

theorem carries_shown (h : KeepsShown pg cat t r) :
    carries pg cat t r (shown pg t x) = carries pg cat t r x := by
  have hcol : ∀ c, keeps pg cat t r c = true → shown pg t x c = x c := by
    intro c hc
    simp [shown, h c hc]
  rw [Bool.eq_iff_iff, carries_iff, carries_iff]
  constructor
  · intro hall c hc
    exact hcol c hc ▸ hall c hc
  · intro hall c hc
    rw [hcol c hc]
    exact hall c hc

theorem shown_overlay :
    shown pg t (overlay pg cat t r x) = shown pg t (overlay pg cat t r (shown pg t x)) := by
  funext c
  by_cases hs : showsColumn pg t c = true <;> simp [shown, overlay, hs]

theorem shown_overlay_eq
    (h : ∀ c, showsColumn pg t c = true → keeps pg cat t r c = false → x c = r c) :
    shown pg t (overlay pg cat t r x) = shown pg t r := by
  funext c
  cases hs : showsColumn pg t c with
  | false => simp [shown, hs]
  | true =>
    cases hk : keeps pg cat t r c with
    | false => simp [shown, hs, overlay_of_not_keeps hk, h c hs hk]
    | true => simp [shown, hs, overlay_of_keeps hk]

theorem SameRows.update {rows : List Row} (h : SameRows pg d db')
    (ht : Agree (shown pg t) (shown pg t) rows (db t)) (hrest : ∀ t', t' ≠ t → db' t' = db t') :
    SameRows pg (Function.update d t rows) db := by
  intro t'
  by_cases heq : t' = t
  · subst heq
    simpa using ht
  · rw [Function.update_of_ne heq, ← hrest t' heq]
    exact h t'

theorem readable_entries {text : AugmentedValue → Literal} {es : List AugmentedValue}
    (h : Readable pg cat text t r) (hes : keptEntries pg cat {} false 0 t r = some es) (db : Db) :
    ∀ a ∈ es, pg.evalLiteral db t a.key (text a) = some (r a.key) := by
  intro a ha
  have hmentions := (mem_keptEntries hes).mp ha
  exact h.2 a.key a hmentions.keeps hmentions.augmented db

end Rows

section Undo

variable {pg : Postgres} {cat : Catalog} {t : String} {r : Row} {d db : Db}
variable {es : List AugmentedValue} {values : Columns} {i : Nat}

theorem undo_insert
    (hsame : SameRows pg d (Function.update db t (db t ++ [r])))
    (hkeeps : KeepsShown pg cat t r) (hdistinct : ∀ x ∈ db t, carries pg cat t r x = false) :
    SameRows pg (deleteRows pg cat t r d) db := by
  refine hsame.update ?_ fun t' ht' => Function.update_of_ne ht' _ _
  have hon : ∀ x, (!carries pg cat t r (shown pg t x)) = !carries pg cat t r x :=
    fun x => by rw [carries_shown hkeeps]
  have hfilter := (hsame t).filter (fun x => !carries pg cat t r x) hon hon
  have hkept : (db t).filter (fun x => !carries pg cat t r x) = db t :=
    List.filter_eq_self.mpr fun x hx => by rw [hdistinct x hx]; rfl
  rw [Function.update_self, List.filter_append, hkept] at hfilter
  simpa [carries_self] using hfilter

theorem undo_delete (hr : (db t)[i]? = some r)
    (hsame : SameRows pg d (Function.update db t ((db t).eraseIdx i)))
    (hdefault : ∀ c, showsColumn pg t c = true → keeps pg cat t r c = false →
      pg.defaultOf db t c = r c) : SameRows pg (insertRow pg cat t r d) db := by
  refine hsame.update ?_ fun t' ht' => Function.update_of_ne ht' _ _
  have hrow : Agree (shown pg t) (shown pg t) [overlay pg cat t r (pg.defaultOf d t)] [r] := by
    have hshown : shown pg t (overlay pg cat t r (pg.defaultOf d t)) = shown pg t r :=
      shown_overlay_eq fun c hs hk => (Postgres.defaultOf_eq d db (generated_of_shown hs)).trans (hdefault c hs hk)
    simp [Agree, hshown]
  have happend := (hsame t).append hrow
  rw [Function.update_self] at happend
  exact happend.perm (eraseIdx_perm hr)

theorem undo_update {r' : Row} (hr : (db t)[i]? = some r)
    (hsame : SameRows pg d (Function.update db t ((db t).set i r')))
    (hkeeps : KeepsShown pg cat t r')
    (hshown : ∀ c, showsColumn pg t c = true → keeps pg cat t r c = false → r' c = r c)
    (hrest : ∀ j x, j ≠ i → (db t)[j]? = some x → carries pg cat t r' x = true →
      carries pg cat t r x = true) : SameRows pg (updateRows pg cat t r' r d) db := by
  refine hsame.update ?_ fun t' ht' => Function.update_of_ne ht' _ _
  have hon : ∀ x, shown pg t (updatedRow pg cat t r' r x) =
      (shown pg t ∘ updatedRow pg cat t r' r) (shown pg t x) := by
    intro x
    unfold Function.comp updatedRow
    rw [carries_shown hkeeps]
    split
    · exact shown_overlay
    · funext c
      by_cases hs : showsColumn pg t c = true <;> simp [shown, hs]
  have hmap := (hsame t).map (shown pg t ∘ updatedRow pg cat t r' r) hon hon
  rw [Function.update_self] at hmap
  refine hmap.congr (map_set_view hr ?_ fun j x hj hx => ?_)
  · rw [updatedRow, carries_self, if_pos rfl]
    exact shown_overlay_eq hshown
  · unfold updatedRow
    split
    · next hcarries => rw [overlay_of_carries (hrest j x hj hx hcarries)]
    · rfl

end Undo

section Changes

variable {pg : Postgres} {cat : Catalog} {ts i : Nat} {user : String} {d db db' : Db}
variable {change : RowChange} {row : IasqlAuditLog}

theorem undone (happly : applyChange pg ts user db change = some (db', row))
    (hrevertible : Revertible pg cat db change) (hsame : SameRows pg d db') :
    ∃ q d', recreateQuery cat {} true false 0 { row with id := i } = some (some q) ∧
      pg.effect d q = some d' ∧ SameRows pg d' db := by
  cases change with
  | insert t values =>
    cases happly
    obtain ⟨hread, hkeeps, hdistinct⟩ := hrevertible
    obtain ⟨es, hes⟩ := keptEntries_isSome pg cat {} 0 t
      (rowOf pg t values)
    refine ⟨.delete t (conditions es), _, by rw [recreateQuery_insert, hes]; rfl,
      (entries_of_kept hes).effect_delete hread.1 (readable_entries hread hes d), ?_⟩
    exact undo_insert hsame hkeeps hdistinct
  | delete t i =>
    obtain ⟨r, hr, heq⟩ := Option.map_eq_some_iff.mp happly
    cases heq
    obtain ⟨hread, hdefault⟩ := hrevertible r hr
    obtain ⟨es, hes⟩ := keptEntries_isSome pg cat {} 0 t r
    refine ⟨.insert t (assignments es), _, by rw [recreateQuery_delete, hes]; rfl,
      (entries_of_kept hes).effect_insert hread.1 (readable_entries hread hes d), ?_⟩
    exact undo_delete hr hsame hdefault
  | update t i values =>
    obtain ⟨r, hr, heq⟩ := Option.map_eq_some_iff.mp happly
    cases heq
    obtain ⟨hread, hread', hkeeps, hshown, hrest⟩ := hrevertible r hr
    obtain ⟨es, hes⟩ := keptEntries_isSome pg cat {} 0 t r
    obtain ⟨es', hes'⟩ := keptEntries_isSome pg cat {} 0 t
      (rowOf pg t values)
    refine ⟨.update t (assignments es) (conditions es'), _,
      by rw [recreateQuery_update, hes, hes']; rfl,
      (entries_of_kept hes').effect_update hread'.1 (entries_of_kept hes) hread.1 (readable_entries hread hes d)
        (readable_entries hread' hes' d), ?_⟩
    exact undo_update hr hsame hkeeps hshown hrest

end Changes

section Runs

variable (pg : Postgres) (cat : Catalog) (pl : LogPlanner)

structure Reverting where
  before : Db
  db : Db
  auditLog : List IasqlAuditLog
  queries : Option (List Statement) := none

inductive RevertAction where
  | change (ts : Nat) (user : String) (change : RowChange)
  | findQueries
  | undo

namespace Reverting

-- a transaction has just been opened
def Opened (s : Reverting) : Prop :=
  s.db = s.before ∧ s.queries = none ∧ getChangeLogsSinceLastBegin pl s.auditLog = some []

def changed (s : Reverting) (ts : Nat) (user : String) (change : RowChange) : Option Reverting :=
  (applyChange pg ts user s.db change).map fun (db, row) =>
    { s with db, auditLog := saveLog s.auditLog row }

def found (s : Reverting) : Option Reverting := do
  let changeLogs ← getChangeLogsSinceLastBegin pl s.auditLog
  if tablesKnown cat changeLogs then
    let queries ← recreateQueries cat {} true false 0 changeLogs
    return { s with queries := some queries }
  else none

-- a query that fails is logged and the next one runs
def step (s : Reverting) (a : RevertAction) : Option Reverting :=
  match s.queries, a with
  | none, .change ts user change => s.changed pg ts user change
  | none, .findQueries => s.found cat pl
  | some (q :: qs), .undo => some { s with db := (pg.execute s.db q).getD s.db, queries := some qs }
  | _, _ => none

structure Recordable (s : Reverting) (ts : Nat) (change : RowChange) : Prop where
  revertible : Revertible pg cat s.db change
  known : (cat.mapperEntities change.table).isSome = true
  opened : ∀ transaction, lastOpenTransaction pl s.auditLog = some transaction → transaction.ts < ts
  ordered : ∀ l ∈ s.auditLog, l.changeType.isRowChange = true → l.ts ≤ ts

def Allowed (s : Reverting) : RevertAction → Prop
  | .change ts _ change => s.Recordable pg cat pl ts change
  | .findQueries => True
  | .undo => ∀ q qs db, s.queries = some (q :: qs) → pg.effect s.db q = some db →
    pg.rejects s.db db = false

end Reverting

inductive Recorded (before : Db) : List IasqlAuditLog → Db → Prop
  | opened : Recorded before [] before
  | change {rows db db' ts user change row i} : Recorded before rows db →
    Revertible pg cat db change → (cat.mapperEntities change.table).isSome = true →
    applyChange pg ts user db change = some (db', row) →
    Recorded before ({ row with id := i } :: rows) db'

def Reverting.Inv (s : Reverting) : Prop :=
  ∃ rows, match s.queries with
    | none => Recorded pg cat s.before rows s.db ∧
      getChangeLogsSinceLastBegin pl s.auditLog = some rows
    | some queries => recreateQueries cat {} true false 0 rows = some queries ∧
      ∃ db, Recorded pg cat s.before rows db ∧ SameRows pg s.db db

variable {pg cat pl} {before db : Db} {rows log : List IasqlAuditLog} {row : IasqlAuditLog}
variable {s s' : Reverting} {a : RevertAction}

theorem getChangeLogsSinceLastBegin_saveLog
    (hrows : getChangeLogsSinceLastBegin pl log = some rows)
    (hrow : row.changeType.isRowChange = true)
    (hopened : ∀ transaction, lastOpenTransaction pl log = some transaction →
      transaction.ts < row.ts)
    (hordered : ∀ l ∈ log, l.changeType.isRowChange = true → l.ts ≤ row.ts) :
    getChangeLogsSinceLastBegin pl (saveLog log row) =
      some ({ row with id := nextId log } :: rows) := by
  obtain ⟨transaction, ht, rfl⟩ := Option.map_eq_some_iff.mp hrows
  rw [getChangeLogsSinceLastBegin, lastOpenTransaction_saveLog hrow, ht, Option.map_some]
  have hkept : (row.changeType.isRowChange && decide (transaction.ts < row.ts)) = true := by
    simpa [hrow] using hopened transaction ht
  have hlast : [{ row with id := nextId log }].filter
      (fun l => l.changeType.isRowChange && decide (transaction.ts < l.ts)) =
        [{ row with id := nextId log }] := List.filter_cons_of_pos hkept
  rw [saveLog, List.filter_append, hlast, newestFirst_append]
  intro l hl
  obtain ⟨hl, hrec⟩ := List.mem_filter.mp hl
  simp only [Bool.and_eq_true] at hrec
  exact ⟨hordered l hl hrec.1, lt_nextId l hl⟩

theorem Recorded.generates (h : Recorded pg cat before rows db) :
    tablesKnown cat rows = true ∧ ∃ queries, recreateQueries cat {} true false 0 rows = some queries := by
  induction h with
  | opened => exact ⟨rfl, [], rfl⟩
  | @change rows db db' ts user change row i _ hrevertible hknown happly ih =>
    obtain ⟨hall, queries, hqueries⟩ := ih
    obtain ⟨q, -, hq, -⟩ := undone (i := i) happly hrevertible fun _ => List.Perm.refl _
    have htable := (applyChange_row happly).2.1
    refine ⟨?_, q :: queries, ?_⟩
    · simpa [tablesKnown, htable, hknown] using hall
    · simp [recreateQueries, hq, hqueries]

theorem Reverting.Inv.step (h : s.Inv pg cat pl) (hok : s.Allowed pg cat pl a)
    (hstep : s.step pg cat pl a = some s') : s'.Inv pg cat pl := by
  obtain ⟨rows, h⟩ := h
  unfold Reverting.step at hstep
  split at hstep
  · next ts user change hnone =>
    rw [hnone] at h
    obtain ⟨hrec, hrows⟩ := h
    obtain ⟨⟨db, row⟩, happly, rfl⟩ := Option.map_eq_some_iff.mp hstep
    obtain ⟨rfl, -, htype⟩ := applyChange_row happly
    refine ⟨{ row with id := nextId s.auditLog } :: rows, ?_⟩
    simp only [hnone]
    exact ⟨hrec.change hok.revertible hok.known happly,
      getChangeLogsSinceLastBegin_saveLog hrows htype hok.opened hok.ordered⟩
  · next hnone =>
    rw [hnone] at h
    obtain ⟨hrec, hrows⟩ := h
    obtain ⟨hknown, queries, hqueries⟩ := hrec.generates
    simp only [Reverting.found, hrows, hknown, hqueries, Option.bind_eq_bind, Option.bind_some,
      ↓reduceIte, Option.pure_def, Option.some.injEq] at hstep
    subst hstep
    exact ⟨rows, hqueries, s.db, hrec, fun _ => List.Perm.refl _⟩
  · next q qs hsome =>
    cases hstep
    rw [hsome] at h
    obtain ⟨hqueries, db, hrec, hsame⟩ := h
    cases hrec with
    | opened => cases hqueries
    | @change rows db₀ db' ts user change row i hrec hrevertible hknown happly =>
      obtain ⟨q', d', hq, heffect, hundone⟩ := undone (i := i) happly hrevertible hsame
      obtain ⟨-, queries, hrest⟩ := hrec.generates
      simp only [recreateQueries, hq, hrest, Option.bind_eq_bind, Option.bind_some,
        Option.pure_def, Option.toList_some, Option.some.injEq, List.singleton_append,
        List.cons.injEq] at hqueries
      obtain ⟨rfl, rfl⟩ := hqueries
      have hrun : pg.execute s.db q' = some d' := by
        simp [Postgres.execute, heffect, hok q' queries d' hsome heffect]
      refine ⟨rows, hrest, db₀, hrec, ?_⟩
      simpa [hrun] using hundone
  · cases hstep

theorem Reverting.Opened.inv (h : s.Opened pl) : s.Inv pg cat pl := by
  obtain ⟨hdb, hqueries, hrows⟩ := h
  refine ⟨[], ?_⟩
  rw [hqueries]
  exact ⟨hdb ▸ .opened, hrows⟩

abbrev Reverts (pg : Postgres) (cat : Catalog) (pl : LogPlanner)
    (allowed : Reverting → RevertAction → Prop) : Reverting → Prop :=
  RunFrom (Reverting.Opened pl) (fun s a s' => s.step pg cat pl a = some s') allowed

section Restored

-- a server that reads every text form of a value back as that value
def readBack : Literal → Option JsVal
  | .quoted v => some v
  | .stringified v => some v
  | .array v _ => some v
  | .jsonb l => readBack l
  | .jsonbOnly l => readBack l
  | _ => none

def vpcPostgres : Postgres where
  columns t := if t = "vpc" then
    [{ name := "id", generated := true }, { name := "cidr_block" }, { name := "tags" }] else []
  input _ _ l := readBack l
  fresh db t _ := .num ((db t).length + 1)
  rejects _ _ := false
  input_null _ _ := rfl

def vpcEntity : EntityMetadata where
  name := "Vpc"
  tableName := "vpc"
  ownColumns := [
    { databaseName := "id", propertyName := "id", isPrimary := true, isGenerated := true },
    { databaseName := "cidr_block", propertyName := "cidrBlock", type := some "varchar" },
    { databaseName := "tags", propertyName := "tags", type := some "json" }]

def vpcCatalog : Catalog where
  mapperEntities t := if t = "vpc" then some [vpcEntity] else none
  entity name := if name = "Vpc" then some vpcEntity else none
  snakeCase := id

def vpcColumnsOf (i : ℚ) (cidrBlock : String) (tags : JsVal) : Columns :=
  [("id", .num i), ("cidr_block", .str cidrBlock), ("tags", tags)]

def mainTags : JsVal := .obj [("name", .str "main")]

def vpcDb : Db := fun t =>
  if t = "vpc" then [rowOf vpcPostgres "vpc" (vpcColumnsOf 1 "10.0.0.0/16" .null)] else []

def tagsAdded : RowChange := .update "vpc" 0 (vpcColumnsOf 1 "10.0.0.0/16" mainTags)

def twinAdded : RowChange := .insert "vpc" (vpcColumnsOf 2 "10.0.0.0/16" .null)

def vpcAdded : RowChange := .insert "vpc" (vpcColumnsOf 2 "172.31.0.0/16" mainTags)

def vpcOpened : Reverting where
  before := vpcDb
  db := vpcDb
  auditLog := [{ ts := 1, user := "iasql", tableName := "iasql_audit_log",
                 changeType := .openTransaction }]

abbrev vpcPlanner : LogPlanner := Newest.Planner.stable IasqlAuditLog.ts

def vpcStep (s : Reverting) (a : RevertAction) : Reverting :=
  (s.step vpcPostgres vpcCatalog vpcPlanner a).getD s

def vpcChanged (change : RowChange) : Reverting := vpcStep vpcOpened (.change 2 "user" change)

def vpcFound (change : RowChange) : Reverting := vpcStep (vpcChanged change) .findQueries

def vpcReverted (change : RowChange) : Reverting := vpcStep (vpcFound change) .undo

theorem vpc_reverts {allowed : Reverting → RevertAction → Prop} {change : RowChange}
    (hchange : allowed vpcOpened (.change 2 "user" change))
    (hfind : allowed (vpcChanged change) .findQueries) (hundo : allowed (vpcFound change) .undo)
    (hsteps : ((vpcOpened.step vpcPostgres vpcCatalog vpcPlanner (.change 2 "user" change)).isSome &&
      ((vpcChanged change).step vpcPostgres vpcCatalog vpcPlanner .findQueries).isSome &&
      ((vpcFound change).step vpcPostgres vpcCatalog vpcPlanner .undo).isSome) = true) :
    Reverts vpcPostgres vpcCatalog vpcPlanner allowed (vpcReverted change) := by
  simp only [Bool.and_eq_true] at hsteps
  obtain ⟨⟨hchanged, hfound⟩, hundone⟩ := hsteps
  have hopened : Reverts vpcPostgres vpcCatalog vpcPlanner allowed vpcOpened :=
    .start ⟨rfl, rfl, rfl⟩
  exact ((hopened.nextGetD hchange hchanged).nextGetD hfind hfound).nextGetD hundo hundone

theorem all_undone {change : RowChange} (h : (vpcReverted change).queries.any List.isEmpty = true) :
    (vpcReverted change).queries = some [] := by
  obtain ⟨queries, hqueries, hnil⟩ := (Option.any_eq_true _ _).mp h
  rw [hqueries, List.isEmpty_iff.mp hnil]

theorem not_sameRows {pg : Postgres} {d db : Db} (t c : String)
    (h : ¬ ((d t).map fun r => shown pg t r c).Perm ((db t).map fun r => shown pg t r c)) :
    ¬ SameRows pg d db := by
  intro hsame
  have hperm := List.Perm.map (fun r => r c) (hsame t)
  rw [List.map_map, List.map_map] at hperm
  exact h hperm

theorem readBack_evalLiteral {db : Db} {t c : String} {v : JsVal} {a : AugmentedValue}
    (h : augmentValue vpcCatalog {} false 0 t c v = some a) :
    vpcPostgres.evalLiteral db t c a.assigned = some v ∧
      vpcPostgres.evalLiteral db t c a.compared = some v := by
  have hvalue : a.value = .value v := augmentValue_value h
  unfold AugmentedValue.assigned AugmentedValue.compared AugmentedValue.formatValue
    AugmentedValue.isArrayValue
  rw [hvalue]
  constructor <;> cases a.isJson <;> cases a.isArray <;> cases hv : v.isArray <;>
    simp [hv, Postgres.evalLiteral, vpcPostgres, readBack]

end Restored

end Runs

end Iasql
