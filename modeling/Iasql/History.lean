import Iasql.Recreate

namespace Iasql

open OrderedMap

inductive RowChange where
  | insert (t : String) (values : Columns)
  | delete (t : String) (i : Nat)
  | update (t : String) (i : Nat) (values : Columns)

section Changes

variable (pg : Postgres)

def rowOf (t : String) (values : Columns) : Row := fun c =>
  if (pg.column t c).isSome then (find c values).getD .null else .null

-- to_json(NEW.*) and to_json(OLD.*)
def rowJson (t : String) (r : Row) : Columns := (pg.columns t).map fun d => (d.name, r d.name)

def iasqlAudit (ts : Nat) (user t : String) (changeType : AuditLogChangeType)
    (original change : Option Row) : IasqlAuditLog :=
  { ts, user, tableName := t, changeType,
    change := { original := original.map (rowJson pg t), change := change.map (rowJson pg t) } }

def RowChange.table : RowChange → String
  | .insert t _ => t
  | .delete t _ => t
  | .update t _ _ => t

def applyChange (ts : Nat) (user : String) (db : Db) : RowChange → Option (Db × IasqlAuditLog)
  | .insert t values =>
    some (Function.update db t (db t ++ [rowOf pg t values]),
      iasqlAudit pg ts user t .insert none (some (rowOf pg t values)))
  | .delete t i => (db t)[i]?.map fun r =>
      (Function.update db t ((db t).eraseIdx i), iasqlAudit pg ts user t .delete (some r) none)
  | .update t i values => (db t)[i]?.map fun r =>
      (Function.update db t ((db t).set i (rowOf pg t values)),
        iasqlAudit pg ts user t .update (some r) (some (rowOf pg t values)))

end Changes

section Kept

variable (pg : Postgres) (cat : Catalog) (lk : Lookup) (sub : Bool) (fuel : Nat)

def columnMetadata (t k : String) : Option ColumnMetadata :=
  match cat.getTableMetadata t with
  | none => none
  | some (.entity e) => columnNamed k e.ownColumns
  | some (.relation r) => columnNamed k r.inverseJoinColumns

def isAutogenerated (t k : String) (v : JsVal) : Bool :=
  v.truthy && (columnMetadata cat t k).elim false ColumnMetadata.isGenerated

-- the columns of a row that a statement made from it mentions
def keeps (t : String) (r : Row) (c : String) : Bool :=
  (pg.column t c).isSome && r c != .null && !isAutogenerated cat t c (r c)

def keptEntries (t : String) (r : Row) : Option (List AugmentedValue) :=
  (augmentEntries cat lk sub fuel t (some (rowJson pg t r))).map fun es =>
    es.filter fun e => !e.isAutogenerated

structure Mentions (t : String) (r : Row) (a : AugmentedValue) : Prop where
  augmented : augmentValue cat lk sub fuel t a.key (r a.key) = some a
  keeps : keeps pg cat t r a.key = true
  notNull : a.isNull = false
  compares : a.awsResolveSupport = false

def AugmentedPayload.NotNull : AugmentedPayload → Prop
  | .value v => v ≠ .null
  | .subQuery l => l ≠ .quoted .null

variable {pg cat lk sub fuel} {t k : String} {r : Row} {v : JsVal} {a : AugmentedValue}

theorem isNull_of_notNull (h : a.value.NotNull) : a.isNull = false := by
  have hformat : a.formatValue ≠ .quoted .null := by
    unfold AugmentedValue.formatValue
    unfold AugmentedPayload.NotNull at h
    cases hv : a.value with
    | subQuery l => simpa [hv] using h
    | value v =>
      rw [hv] at h
      dsimp only at h ⊢
      split
      · simp
      · split <;> simp [h]
  unfold AugmentedValue.isNull
  split
  · next heq => exact absurd heq hformat
  · rfl

theorem recreateSubQuery_notNull {dbKey key : String} {em : Option EntityMetadata} {l : Literal}
    (h : recreateSubQuery cat lk sub fuel dbKey key v em = some l) : l ≠ .quoted .null := by
  cases fuel with
  | zero => cases h
  | succ fuel =>
    unfold recreateSubQuery recreateSubQueryWith at h
    split at h
    · cases h
      simp
    · split at h
      · cases h
        simp
      · split at h
        · cases h
          simp
        · simp only [Option.bind_eq_bind, Option.bind_eq_some_iff, Option.pure_def] at h
          obtain ⟨values, -, h⟩ := h
          split at h
          · obtain ⟨values', -, h⟩ := Option.bind_eq_some_iff.mp h
            cases h
            simp [subQueryOn]
          · cases h
            simp [subQueryOn]

theorem augmentReference_notNull {subQuery : SubQueries} {col : Option ColumnMetadata}
    {target : Option String} {payload out : AugmentedPayload}
    (hsub : ∀ dbKey key em l, subQuery dbKey key v em = some l → l ≠ .quoted .null)
    (hpayload : payload.NotNull)
    (h : augmentReference cat sub subQuery col target v payload = some out) : out.NotNull := by
  unfold augmentReference at h
  split at h
  · obtain ⟨l, hl, rfl⟩ := Option.map_eq_some_iff.mp h
    exact hsub _ _ _ l hl
  · cases h
    exact hpayload

theorem augmentValue_spec (hv : v ≠ .null)
    (h : augmentValue cat lk sub fuel t k v = some a) :
    a.key = k ∧ a.isAutogenerated = isAutogenerated cat t k v ∧ a.isNull = false ∧
      a.awsResolveSupport = false := by
  have hsub : ∀ dbKey key em l, recreateSubQuery cat lk sub fuel dbKey key v em = some l →
      l ≠ .quoted .null := fun _ _ _ _ => recreateSubQuery_notNull
  have hvalue : (AugmentedPayload.value v).NotNull := hv
  unfold augmentValue augmentWith at h
  unfold isAutogenerated columnMetadata
  split at h
  · next htruthy =>
    cases h
    have hfalse : v.truthy = false := by simpa using htruthy
    exact ⟨rfl, by simp [hfalse], isNull_of_notNull hvalue, rfl⟩
  · next htruthy =>
    have htrue : v.truthy = true := by simpa using htruthy
    split at h
    · cases h
      exact ⟨rfl, by simp [*], isNull_of_notNull hvalue, rfl⟩
    · obtain ⟨payload, hp, rfl⟩ := Option.map_eq_some_iff.mp h
      exact ⟨rfl, by simp [*, AugmentedValue.describe],
        isNull_of_notNull (augmentReference_notNull hsub hvalue hp), rfl⟩
    · obtain ⟨owner, howner, h⟩ := Option.bind_eq_some_iff.mp h
      obtain ⟨payload, hp, rfl⟩ := Option.map_eq_some_iff.mp h
      have hown := augmentReference_notNull hsub hvalue howner
      exact ⟨rfl, by simp [*, AugmentedValue.describe],
        isNull_of_notNull (augmentReference_notNull hsub hown hp), rfl⟩

theorem augmentValue_value (h : augmentValue cat lk false fuel t k v = some a) :
    a.value = .value v := by
  unfold augmentValue augmentWith at h
  split at h
  · cases h
    rfl
  · split at h <;> cases h <;> rfl

theorem mem_mapM {α β : Type} {f : α → Option β} {xs : List α} {ys : List β}
    (h : xs.mapM f = some ys) (y : β) : y ∈ ys ↔ ∃ x ∈ xs, f x = some y := by
  induction xs generalizing ys with
  | nil =>
    cases h
    simp
  | cons x xs ih =>
    rw [List.mapM_cons] at h
    simp only [Option.bind_eq_bind, Option.bind_eq_some_iff, Option.pure_def,
      Option.some.injEq] at h
    obtain ⟨z, hz, zs, hzs, rfl⟩ := h
    rw [List.mem_cons, ih hzs]
    simp [hz, eq_comm]

theorem mapM_isSome {α β : Type} {f : α → Option β} {xs : List α} {ys : List β}
    (h : xs.mapM f = some ys) : ∀ x ∈ xs, ∃ y, f x = some y := by
  induction xs generalizing ys with
  | nil => simp
  | cons x xs ih =>
    rw [List.mapM_cons] at h
    simp only [Option.bind_eq_bind, Option.bind_eq_some_iff, Option.pure_def,
      Option.some.injEq] at h
    obtain ⟨z, hz, zs, hzs, -⟩ := h
    simpa [hz] using ih hzs

theorem column_isSome {c : String} :
    (pg.column t c).isSome = true ↔ ∃ d ∈ pg.columns t, d.name = c := by
  rw [Postgres.column, List.find?_isSome]
  simp

theorem mem_rowJson {c : String} :
    (c, v) ∈ rowJson pg t r ↔ (pg.column t c).isSome = true ∧ r c = v := by
  rw [column_isSome, rowJson, List.mem_map]
  constructor
  · rintro ⟨d, hd, hpair⟩
    obtain ⟨rfl, rfl⟩ := Prod.mk.inj hpair
    exact ⟨⟨d, hd, rfl⟩, rfl⟩
  · rintro ⟨⟨d, hd, rfl⟩, rfl⟩
    exact ⟨d, hd, rfl⟩

theorem mem_keptEntries {es : List AugmentedValue} (h : keptEntries pg cat lk sub fuel t r = some es) :
    a ∈ es ↔ Mentions pg cat lk sub fuel t r a := by
  obtain ⟨all, hall, rfl⟩ := Option.map_eq_some_iff.mp h
  rw [List.mem_filter, mem_mapM hall]
  constructor
  · rintro ⟨⟨⟨k, v⟩, hkv, haug⟩, hauto⟩
    obtain ⟨hmem, hne⟩ := List.mem_filter.mp hkv
    obtain ⟨hcol, rfl⟩ := mem_rowJson.mp hmem
    have hv : r k ≠ .null := by simpa using hne
    obtain ⟨rfl, hgen, hnull, haws⟩ := augmentValue_spec hv haug
    refine ⟨haug, ?_, hnull, haws⟩
    rw [keeps, ← hgen]
    simpa [hcol, hv] using hauto
  · rintro ⟨haug, hkeeps, -, -⟩
    simp only [keeps, Bool.and_eq_true, bne_iff_ne, Bool.not_eq_true'] at hkeeps
    obtain ⟨⟨hcol, hv⟩, hgen⟩ := hkeeps
    refine ⟨⟨(a.key, r a.key), List.mem_filter.mpr ⟨mem_rowJson.mpr ⟨hcol, rfl⟩, by simpa using hv⟩,
      haug⟩, ?_⟩
    rw [(augmentValue_spec hv haug).2.1, hgen]
    rfl

theorem mem_keptKeys {es : List AugmentedValue} {c : String}
    (h : keptEntries pg cat lk sub fuel t r = some es) :
    (∃ a ∈ es, a.key = c) ↔ keeps pg cat t r c = true := by
  constructor
  · rintro ⟨a, ha, rfl⟩
    exact ((mem_keptEntries h).mp ha).keeps
  · intro hkeeps
    have hkept := hkeeps
    simp only [keeps, Bool.and_eq_true, bne_iff_ne] at hkeeps
    obtain ⟨⟨hcol, hv⟩, -⟩ := hkeeps
    obtain ⟨all, hall, -⟩ := Option.map_eq_some_iff.mp h
    obtain ⟨a, haug⟩ := mapM_isSome hall (c, r c)
      (List.mem_filter.mpr ⟨mem_rowJson.mpr ⟨hcol, rfl⟩, by simpa using hv⟩)
    obtain ⟨hkey, -, hnull, haws⟩ := augmentValue_spec hv haug
    subst hkey
    exact ⟨a, (mem_keptEntries h).mpr ⟨haug, hkept, hnull, haws⟩, rfl⟩

-- the entries mention the columns that the row keeps
structure Entries (pg : Postgres) (cat : Catalog) (t : String) (r : Row)
    (es : List AugmentedValue) : Prop where
  keys : ∀ c, (∃ a ∈ es, a.key = c) ↔ keeps pg cat t r c = true
  notNull : ∀ a ∈ es, a.isNull = false
  compares : ∀ a ∈ es, a.awsResolveSupport = false

theorem entries_of_kept {es : List AugmentedValue}
    (h : keptEntries pg cat lk sub fuel t r = some es) : Entries pg cat t r es where
  keys _ := mem_keptKeys h
  notNull _ ha := ((mem_keptEntries h).mp ha).notNull
  compares _ ha := ((mem_keptEntries h).mp ha).compares

end Kept

section Effects

variable (pg : Postgres) (cat : Catalog)

def carries (t : String) (r x : Row) : Bool :=
  (pg.columns t).all fun d => !keeps pg cat t r d.name || x d.name == r d.name

def overlay (t : String) (r x : Row) : Row := fun c => if keeps pg cat t r c then r c else x c

def insertRow (t : String) (r : Row) (db : Db) : Db :=
  Function.update db t (db t ++ [overlay pg cat t r (pg.defaultOf db t)])

def deleteRows (t : String) (r : Row) (db : Db) : Db :=
  Function.update db t ((db t).filter fun x => !carries pg cat t r x)

def updatedRow (t : String) (r r' x : Row) : Row :=
  if carries pg cat t r x then overlay pg cat t r' x else x

def updateRows (t : String) (r r' : Row) (db : Db) : Db :=
  Function.update db t ((db t).map (updatedRow pg cat t r r'))

variable {pg cat} {t : String} {r r' x : Row} {db : Db}

theorem carries_iff :
    carries pg cat t r x = true ↔ ∀ c, keeps pg cat t r c = true → x c = r c := by
  simp only [carries, List.all_eq_true, Bool.or_eq_true, Bool.not_eq_true', beq_iff_eq]
  constructor
  · intro h c hc
    have hcol : (pg.column t c).isSome = true := by
      simp only [keeps, Bool.and_eq_true] at hc
      exact hc.1.1
    obtain ⟨d, hd, rfl⟩ := column_isSome.mp hcol
    rcases h d hd with hnot | heq
    · rw [hnot] at hc
      cases hc
    · exact heq
  · intro h d _
    cases hk : keeps pg cat t r d.name with
    | false => exact .inl rfl
    | true => exact .inr (h d.name hk)

theorem overlay_of_keeps {c : String} (h : keeps pg cat t r c = true) :
    overlay pg cat t r x c = r c := by simp [overlay, h]

theorem overlay_of_not_keeps {c : String} (h : keeps pg cat t r c = false) :
    overlay pg cat t r x c = x c := by simp [overlay, h]

theorem overlay_of_carries (h : carries pg cat t r x = true) : overlay pg cat t r x = x := by
  funext c
  cases hk : keeps pg cat t r c with
  | false => exact overlay_of_not_keeps hk
  | true => rw [overlay_of_keeps hk, carries_iff.mp h c hk]

theorem carries_self : carries pg cat t r r = true := carries_iff.mpr fun _ _ => rfl

variable {es es' : List AugmentedValue}

def AssignedAs (pg : Postgres) (db : Db) (t : String) (r : Row) (es : List AugmentedValue) : Prop :=
  ∀ a ∈ es, pg.evalLiteral db t a.key a.assigned = some (r a.key)

def ComparedAs (pg : Postgres) (db : Db) (t : String) (r : Row) (es : List AugmentedValue) : Prop :=
  ∀ a ∈ es, pg.evalLiteral db t a.key a.compared = some (r a.key)

theorem evalValues_assignments (h : AssignedAs pg db t r es) :
    pg.evalValues db t (assignments es) = some (es.map fun a => (a.key, r a.key)) := by
  induction es with
  | nil => rfl
  | cons a es ih =>
    have hhead := h a (by simp)
    have htail := ih fun b hb => h b (by simp [hb])
    simp only [assignments] at htail
    simp [assignments, Postgres.evalValues, hhead, htail]

theorem evalConds_conditions (h : ComparedAs pg db t r es)
    (haws : ∀ a ∈ es, a.awsResolveSupport = false) :
    pg.evalConds db t (conditions es) = some (es.map fun a => (a.key, a.comparison, r a.key)) := by
  induction es with
  | nil => simp [conditions, Postgres.evalConds]
  | cons a es ih =>
    have hhead := h a (by simp)
    have htail := ih (fun b hb => h b (by simp [hb])) fun b hb => haws b (by simp [hb])
    simp only [conditions] at htail
    simp [conditions, Postgres.evalConds, haws a (by simp), hhead, htail]

theorem matchesAll_eq_all (cs : List (String × Comparison × JsVal)) (x : Row) :
    Postgres.matchesAll cs x = cs.all fun e => Postgres.matchesAll [e] x := by
  simp [Postgres.matchesAll]

theorem matchesAll_entry {a : AugmentedValue} (hnull : a.isNull = false) (hr : r a.key ≠ .null) :
    Postgres.matchesAll [(a.key, a.comparison, r a.key)] x = decide (x a.key = r a.key) := by
  have hcomparison : a.comparison ≠ .is := by
    rw [AugmentedValue.comparison, hnull]
    cases a.isJson <;> simp
  have hequal : (x a.key != .null && x a.key == r a.key) = decide (x a.key = r a.key) := by
    by_cases heq : x a.key = r a.key <;> simp [heq, hr]
  cases hc : a.comparison with
  | is => exact absurd hc hcomparison
  | equals => simpa [Postgres.matchesAll] using hequal
  | jsonbEquals => simpa [Postgres.matchesAll] using hequal

theorem find_entries (es : List AugmentedValue) (x : Row) (c : String) :
    (find c (es.map fun a => (a.key, r a.key))).getD (x c) =
      if ∃ a ∈ es, a.key = c then r c else x c := by
  induction es with
  | nil => simp [find]
  | cons a es ih =>
    by_cases ha : a.key = c
    · simp [find, ha]
    · simp [find, ha, ih]

namespace Entries

variable (h : Entries pg cat t r es)
include h

theorem find_getD (x : Row) (c : String) :
    (find c (es.map fun a => (a.key, r a.key))).getD (x c) = overlay pg cat t r x c := by
  rw [find_entries, overlay]
  simp only [h.keys]

theorem matchesAll (x : Row) :
    Postgres.matchesAll (es.map fun a => (a.key, a.comparison, r a.key)) x =
      carries pg cat t r x := by
  have hone : ∀ a ∈ es, Postgres.matchesAll [(a.key, a.comparison, r a.key)] x =
      decide (x a.key = r a.key) := by
    intro a ha
    have hkeeps := (h.keys a.key).mp ⟨a, ha, rfl⟩
    simp only [keeps, Bool.and_eq_true, bne_iff_ne] at hkeeps
    exact matchesAll_entry (h.notNull a ha) hkeeps.1.2
  rw [Bool.eq_iff_iff, carries_iff, matchesAll_eq_all, List.all_map, List.all_eq_true]
  simp only [Function.comp_apply]
  constructor
  · intro hall c hc
    obtain ⟨a, ha, rfl⟩ := (h.keys c).mpr hc
    have hmatch := hall a ha
    rw [hone a ha] at hmatch
    exact of_decide_eq_true hmatch
  · intro hall a ha
    rw [hone a ha]
    exact decide_eq_true (hall a.key ((h.keys a.key).mp ⟨a, ha, rfl⟩))

variable (hsome : ∃ c, keeps pg cat t r c = true)
include hsome

theorem ne_nil : es ≠ [] := by
  obtain ⟨c, hc⟩ := hsome
  obtain ⟨a, ha, -⟩ := (h.keys c).mpr hc
  exact List.ne_nil_of_mem ha

theorem effect_insert (hassigned : AssignedAs pg db t r es) :
    pg.effect db (.insert t (assignments es)) = some (insertRow pg cat t r db) := by
  have hne := h.ne_nil hsome
  have hrow : pg.newRow db t (es.map fun a => (a.key, r a.key)) =
      overlay pg cat t r (pg.defaultOf db t) := by
    funext c
    exact h.find_getD _ c
  have hvalues := evalValues_assignments hassigned
  obtain ⟨a, rest, rfl⟩ := List.exists_cons_of_ne_nil hne
  simp only [List.map_cons] at hvalues hrow
  simp only [Postgres.effect, hvalues, hrow, insertRow]

theorem effect_delete (hcompared : ComparedAs pg db t r es) :
    pg.effect db (.delete t (conditions es)) = some (deleteRows pg cat t r db) := by
  have hne := h.ne_nil hsome
  have hmatch := h.matchesAll
  have hconds := evalConds_conditions hcompared h.compares
  obtain ⟨a, rest, rfl⟩ := List.exists_cons_of_ne_nil hne
  simp only [List.map_cons] at hconds hmatch
  simp only [Postgres.effect, hconds, hmatch, deleteRows]

theorem effect_update (h' : Entries pg cat t r' es') (hsome' : ∃ c, keeps pg cat t r' c = true)
    (hassigned : AssignedAs pg db t r' es') (hcompared : ComparedAs pg db t r es) :
    pg.effect db (.update t (assignments es') (conditions es)) =
      some (updateRows pg cat t r r' db) := by
  have hne := h.ne_nil hsome
  have hne' := h'.ne_nil hsome'
  have hmatch := h.matchesAll
  have hset : ∀ x, Postgres.setRow (es'.map fun a => (a.key, r' a.key)) x =
      overlay pg cat t r' x := by
    intro x
    funext c
    exact h'.find_getD x c
  have hvalues := evalValues_assignments hassigned
  have hconds := evalConds_conditions hcompared h.compares
  obtain ⟨a, rest, rfl⟩ := List.exists_cons_of_ne_nil hne
  obtain ⟨a', rest', rfl⟩ := List.exists_cons_of_ne_nil hne'
  simp only [List.map_cons] at hconds hmatch hset hvalues
  simp only [Postgres.effect, hvalues, hconds, hmatch, hset, updateRows]
  rfl

end Entries

end Effects

section Recorded

variable {pg : Postgres} {cat : Catalog} {lk : Lookup} {inverse sub : Bool} {fuel : Nat}
variable (i ts : Nat) (user t : String) (r r' : Row)

theorem recreateQuery_insert :
    recreateQuery cat lk inverse sub fuel
        { iasqlAudit pg ts user t .insert none (some r) with id := i } =
      (keptEntries pg cat lk sub fuel t r).map fun es =>
        some (if inverse then .delete t (conditions es) else .insert t (assignments es)) := by
  simp only [recreateQuery, iasqlAudit, keptEntries, Option.map_some]
  cases augmentEntries cat lk sub fuel t (some (rowJson pg t r)) with
  | none => rfl
  | some es => cases inverse <;> rfl

theorem recreateQuery_delete :
    recreateQuery cat lk inverse sub fuel
        { iasqlAudit pg ts user t .delete (some r) none with id := i } =
      (keptEntries pg cat lk sub fuel t r).map fun es =>
        some (if inverse then .insert t (assignments es) else .delete t (conditions es)) := by
  simp only [recreateQuery, iasqlAudit, keptEntries, Option.map_some]
  cases augmentEntries cat lk sub fuel t (some (rowJson pg t r)) with
  | none => rfl
  | some es => cases inverse <;> rfl

theorem recreateQuery_update :
    recreateQuery cat lk inverse sub fuel
        { iasqlAudit pg ts user t .update (some r) (some r') with id := i } =
      (keptEntries pg cat lk sub fuel t r).bind fun es =>
        (keptEntries pg cat lk sub fuel t r').map fun es' =>
          some (if inverse then .update t (assignments es) (conditions es')
            else .update t (assignments es') (conditions es)) := by
  simp only [recreateQuery, iasqlAudit, keptEntries, Option.map_some]
  cases augmentEntries cat lk sub fuel t (some (rowJson pg t r)) with
  | none => rfl
  | some es =>
    cases augmentEntries cat lk sub fuel t (some (rowJson pg t r')) with
    | none => rfl
    | some es' => cases inverse <;> rfl

end Recorded

section Applied

variable {pg : Postgres} {ts : Nat} {user : String} {db db' : Db} {change : RowChange}
variable {row : IasqlAuditLog}

theorem applyChange_row (h : applyChange pg ts user db change = some (db', row)) :
    row.ts = ts ∧ row.tableName = change.table ∧ row.changeType.isRowChange = true := by
  cases change with
  | insert t values =>
    cases h
    exact ⟨rfl, rfl, rfl⟩
  | delete t i =>
    obtain ⟨r, -, heq⟩ := Option.map_eq_some_iff.mp h
    cases heq
    exact ⟨rfl, rfl, rfl⟩
  | update t i values =>
    obtain ⟨r, -, heq⟩ := Option.map_eq_some_iff.mp h
    cases heq
    exact ⟨rfl, rfl, rfl⟩

theorem applyChange_user (h : applyChange pg ts user db change = some (db', row)) :
    row.user = user ∧ row.transactionId = none := by
  cases change with
  | insert t values =>
    cases h
    exact ⟨rfl, rfl⟩
  | delete t i =>
    obtain ⟨r, -, heq⟩ := Option.map_eq_some_iff.mp h
    cases heq
    exact ⟨rfl, rfl⟩
  | update t i values =>
    obtain ⟨r, -, heq⟩ := Option.map_eq_some_iff.mp h
    cases heq
    exact ⟨rfl, rfl⟩

end Applied

section Generated

variable (pg : Postgres) (cat : Catalog) (lk : Lookup) (fuel : Nat)

theorem augmentValue_isSome (t k : String) (v : JsVal) :
    ∃ a, augmentValue cat lk false fuel t k v = some a := by
  unfold augmentValue augmentWith
  split
  · exact ⟨_, rfl⟩
  · split
    · exact ⟨_, rfl⟩
    · exact ⟨_, rfl⟩
    · exact ⟨_, rfl⟩

theorem mapM_of_isSome {α β : Type} {f : α → Option β} {xs : List α}
    (h : ∀ x ∈ xs, ∃ y, f x = some y) : ∃ ys, xs.mapM f = some ys := by
  induction xs with
  | nil => exact ⟨[], rfl⟩
  | cons x xs ih =>
    obtain ⟨y, hy⟩ := h x (by simp)
    obtain ⟨ys, hys⟩ := ih fun z hz => h z (by simp [hz])
    exact ⟨y :: ys, by simp [List.mapM_cons, hy, hys]⟩

theorem keptEntries_isSome (t : String) (r : Row) :
    ∃ es, keptEntries pg cat lk false fuel t r = some es := by
  obtain ⟨all, hall⟩ : ∃ all, augmentEntries cat lk false fuel t (some (rowJson pg t r)) = some all :=
    mapM_of_isSome fun p _ => augmentValue_isSome cat lk fuel t p.1 p.2
  exact ⟨_, by rw [keptEntries, hall]; rfl⟩

end Generated

section Log

variable {pl : LogPlanner} {log : List IasqlAuditLog} {row : IasqlAuditLog}

theorem lt_nextId : ∀ l ∈ log, l.id < nextId log := by
  have hle : ∀ (ids : List Nat) (m : Nat), m ≤ ids.foldl max m ∧ ∀ i ∈ ids, i ≤ ids.foldl max m := by
    intro ids
    induction ids with
    | nil => simp
    | cons i ids ih =>
      intro m
      have hrest := ih (max m i)
      refine ⟨le_trans (le_max_left m i) hrest.1, fun j hj => ?_⟩
      rcases List.mem_cons.mp hj with rfl | hj
      · exact le_trans (le_max_right m j) hrest.1
      · exact hrest.2 j hj
  intro l hl
  have hid := (hle (log.map (·.id)) 0).2 l.id (List.mem_map_of_mem hl)
  unfold nextId
  omega

theorem lastOpenTransaction_saveLog (hrow : row.changeType.isRowChange = true) :
    lastOpenTransaction pl (saveLog log row) = lastOpenTransaction pl log := by
  refine pl.findOne_congr ?_
  have hnot : ¬ (row.changeType == .openTransaction) = true := by
    cases hc : row.changeType <;> rw [hc] at hrow <;>
      simp [AuditLogChangeType.isRowChange] at hrow ⊢
  simp [saveLog, List.filter_append, hnot]

theorem newestFirst_append (h : ∀ l ∈ log, l.ts ≤ row.ts ∧ l.id < row.id) :
    newestFirst (log ++ [row]) = row :: newestFirst log := by
  induction log with
  | nil => rfl
  | cons l log ih =>
    have hrest := ih fun m hm => h m (by simp [hm])
    have hl := h l (by simp)
    have hlater : ¬ (row.ts < l.ts ∨ row.ts = l.ts ∧ row.id ≤ l.id) := by omega
    unfold newestFirst at hrest ⊢
    rw [List.cons_append, List.insertionSort_cons, hrest, List.orderedInsert_cons, if_neg hlater]
    rfl

end Log

end Iasql
