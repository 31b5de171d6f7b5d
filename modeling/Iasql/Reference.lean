import Iasql.Renaming

namespace Iasql

section References

structure Reference where
  dbKey : String
  key : String
  entity : Option EntityMetadata

variable (cat : Catalog)

def refer (col : Option ColumnMetadata) (target : Option String) : Option Reference :=
  target.map fun entityName =>
    let (dbKey, key) := (col.bind ColumnMetadata.referencedColumn).getD ("unknown_key", "unknownKey")
    { dbKey, key, entity := cat.entity entityName }

def ownReference (col : Option ColumnMetadata) : Option Reference :=
  refer cat col ((col.bind ColumnMetadata.relation).map (·.inverseEntity))

def joinReference (col : Option ColumnMetadata) : Option Reference :=
  refer cat col ((col.bind ColumnMetadata.relation).map (·.entity))

-- the reference that a value is written as; none: the value is written as it is
def referenceOf (t k : String) (v : JsVal) : Option Reference :=
  if !v.truthy then none
  else match cat.getTableMetadata t with
    | none => none
    | some (.entity e) => ownReference cat (columnNamed k e.ownColumns)
    | some (.relation r) =>
      (ownReference cat (columnNamed k r.inverseJoinColumns)).or
        (joinReference cat (columnNamed k r.joinColumns))

-- no column of a join table belongs to both of its sides
def OneSided (t k : String) : Prop := ∀ r, cat.getTableMetadata t = some (.relation r) →
  joinReference cat (columnNamed k r.joinColumns) = none ∨
    ownReference cat (columnNamed k r.inverseJoinColumns) = none

def isJsonColumn (t k : String) : Bool :=
  ((columnMetadata cat t k).bind ColumnMetadata.type).elim false (jsonTypes.contains ·)

-- the columns and values that the sub-query for an entity looks for
def identifying (em : EntityMetadata) (cloudIds : List String) (e : Columns) :
    List (String × JsVal) :=
  let cloud := cloudIds.map fun cid => (cat.snakeCase cid, property e cid)
  if cloud.all fun p => p.2 == .null then
    (em.ownColumns.filter fun oc =>
      oc.relation.isNone && (property e oc.propertyName).truthy && !oc.isPrimary).map
        fun oc => (oc.databaseName, property e oc.propertyName)
  else cloud

def lookedUp (lk : Lookup) (em : EntityMetadata) (key : String) (v : JsVal) : Option Columns :=
  (lk.findOne em.name key v).or
    ((lk.recreated em.name).find? fun re => strictEquals (property re key) v)

variable (pg : Postgres)

def ReadsAs (text : AugmentedValue → Literal) (t c : String) (v w : JsVal) : Prop :=
  ∀ a, augmentValue cat {} false 0 t c v = some a → ∀ db, pg.evalLiteral db t c (text a) = some w

def sameOn (ps : List (String × JsVal)) (x y : Row) : Bool := ps.all fun p => y p.1 == x p.1

-- what is written for v in column c of t stands for w: the value itself, or a row of the
-- referenced table that no other row of db equals in the columns the sub-query compares
inductive Names (lk : Lookup) (links : Links pg) (db : Db) :
    (AugmentedValue → Literal) → Nat → String → String → JsVal → JsVal → Prop
  | text {text fuel t c v w} : referenceOf cat t c v = none → links.kind t c = none →
    ReadsAs cat pg text t c v w → Names lk links db text fuel t c v w
  | reference {text fuel t c v ref em cloudIds e x} : referenceOf cat t c v = some ref →
    OneSided cat t c → isJsonColumn cat t c = false →
    ref.entity = some em → em.cloudIds = some cloudIds → lookedUp lk em ref.key v = some e →
    links.kind t c = links.kind em.tableName ref.dbKey →
    identifying cat em cloudIds e ≠ [] →
    (∀ p ∈ identifying cat em cloudIds e, p.2 = .null ↔ x p.1 = .null) →
    (∀ p ∈ identifying cat em cloudIds e, p.2 ≠ .null →
      Names lk links db AugmentedValue.formatValue fuel em.tableName p.1 p.2 (x p.1)) →
    (db em.tableName).filter (sameOn (identifying cat em cloudIds e) x) = [x] →
    Names lk links db text (fuel + 1) t c v (x ref.dbKey)

end References

section Augment

variable {cat : Catalog} {lk : Lookup} {fuel : Nat} {t k : String} {v : JsVal} {a : AugmentedValue}

theorem augmentReference_refer {subQuery : SubQueries} {col : Option ColumnMetadata}
    {target : Option String} {payload : AugmentedPayload} :
    augmentReference cat true subQuery col target v payload =
      match refer cat col target with
      | none => some payload
      | some ref => (subQuery ref.dbKey ref.key v ref.entity).map .subQuery := by
  cases target <;> rfl

theorem augmentValue_text (h : referenceOf cat t k v = none) :
    augmentValue cat lk true fuel t k v = augmentValue cat {} false 0 t k v := by
  unfold referenceOf at h
  unfold augmentValue augmentWith
  cases hv : v.truthy with
  | false => rfl
  | true =>
    simp only [hv, Bool.not_true, Bool.false_eq_true, ↓reduceIte] at h ⊢
    cases hm : cat.getTableMetadata t with
    | none => rfl
    | some metadata =>
      simp only [hm] at h
      cases metadata with
      | entity e =>
        simp only [augmentReference_refer]
        unfold ownReference at h
        simp only [h]
        rfl
      | relation r =>
        simp only [Option.or_eq_none_iff] at h
        unfold ownReference joinReference at h
        simp only [augmentReference_refer, h.1, h.2]
        rfl

theorem augmentValue_reference {ref : Reference} {l : Literal}
    (h : referenceOf cat t k v = some ref) (hside : OneSided cat t k)
    (hl : recreateSubQuery cat lk true fuel ref.dbKey ref.key v ref.entity = some l) :
    ∃ a, augmentValue cat lk true fuel t k v = some a ∧ a.value = .subQuery l ∧
      a.isJson = isJsonColumn cat t k := by
  unfold referenceOf at h
  unfold augmentValue augmentWith isJsonColumn columnMetadata
  cases hv : v.truthy with
  | false => simp [hv] at h
  | true =>
    simp only [hv, Bool.not_true, Bool.false_eq_true, ↓reduceIte] at h ⊢
    cases hm : cat.getTableMetadata t with
    | none => simp [hm] at h
    | some metadata =>
      simp only [hm] at h
      cases metadata with
      | entity e =>
        unfold ownReference at h
        simp only [augmentReference_refer, h, hl, Option.map_some]
        exact ⟨_, rfl, rfl, rfl⟩
      | relation r =>
        rcases hside r hm with hjoin | hown
        · simp only [hjoin, Option.or_none] at h
          unfold ownReference at h
          unfold joinReference at hjoin
          simp only [augmentReference_refer, h, hjoin, hl, Option.map_some, Option.bind_some]
          exact ⟨_, rfl, rfl, rfl⟩
        · simp only [hown, Option.none_or] at h
          unfold joinReference at h
          unfold ownReference at hown
          simp only [augmentReference_refer, h, hown, hl, Option.map_some, Option.bind_some]
          exact ⟨_, rfl, rfl, rfl⟩

theorem augmentValue_isNull (h : augmentValue cat lk true fuel t k v = some a) :
    a.isNull = (v == .null) := by
  by_cases hv : v = .null
  · subst hv
    cases h
    rfl
  · rw [(augmentValue_spec hv h).2.2.1]
    simp [hv]

theorem augmentValue_compares (h : augmentValue cat lk true fuel t k v = some a) :
    a.key = k ∧ a.awsResolveSupport = false := by
  by_cases hv : v = .null
  · subst hv
    cases h
    exact ⟨rfl, rfl⟩
  · obtain ⟨hkey, -, -, haws⟩ := augmentValue_spec hv h
    exact ⟨hkey, haws⟩

theorem mapM_all {α β : Type} {f : α → Option β} {p : α → Bool} {q : β → Bool} {xs : List α}
    {ys : List β} (h : xs.mapM f = some ys) (hpq : ∀ x y, f x = some y → q y = p x) :
    ys.all q = xs.all p := by
  rw [Bool.eq_iff_iff, List.all_eq_true, List.all_eq_true]
  constructor
  · intro hall x hx
    obtain ⟨y, hy⟩ := mapM_isSome h x hx
    rw [← hpq x y hy]
    exact hall y ((mem_mapM h y).mpr ⟨x, hx, hy⟩)
  · intro hall y hy
    obtain ⟨x, hx, hf⟩ := (mem_mapM h y).mp hy
    rw [hpq x y hf]
    exact hall x hx

def comparisons (values : List AugmentedValue) : Conds :=
  values.map fun a => (a.key, a.comparison, a.formatValue)

theorem subQueryOn_eq {values : List AugmentedValue} (dbKey table : String)
    (h : ∀ a ∈ values, a.awsResolveSupport = false) :
    subQueryOn dbKey table values = .subQuery dbKey table (comparisons values) := by
  have hall : (values.filter fun a => !a.awsResolveSupport) = values :=
    List.filter_eq_self.mpr fun a ha => by rw [h a ha]; rfl
  rw [subQueryOn, hall, List.zipWith_self]
  rfl

theorem recreateSubQuery_found {em : EntityMetadata} {cloudIds : List String} {e : Columns}
    {values : List AugmentedValue} (dbKey key : String) (hcloud : em.cloudIds = some cloudIds)
    (hfound : lookedUp lk em key v = some e)
    (hvalues : (identifying cat em cloudIds e).mapM (fun p =>
      augmentValue cat lk true fuel em.tableName p.1 p.2) = some values) :
    recreateSubQuery cat lk true (fuel + 1) dbKey key v (some em) =
      some (.subQuery dbKey em.tableName (comparisons values)) := by
  have hcompares : ∀ a ∈ values, a.awsResolveSupport = false := by
    intro a ha
    obtain ⟨p, -, hp⟩ := (mem_mapM hvalues a).mp ha
    exact (augmentValue_compares hp).2
  rw [← subQueryOn_eq dbKey em.tableName hcompares]
  unfold lookedUp at hfound
  unfold recreateSubQuery recreateSubQueryWith
  simp only [hcloud, hfound]
  unfold identifying at hvalues
  dsimp only at hvalues
  have hnulls : ∀ values₀, cloudIds.mapM (fun cid =>
      augmentValue cat lk true fuel em.tableName (cat.snakeCase cid) (property e cid)) =
        some values₀ → values₀.all AugmentedValue.isNull =
          (cloudIds.map fun cid => (cat.snakeCase cid, property e cid)).all fun p => p.2 == .null := by
    intro values₀ h₀
    rw [mapM_all h₀ fun cid a ha => augmentValue_isNull ha, List.all_map]
    rfl
  split at hvalues
  · next hall =>
    obtain ⟨values₀, h₀⟩ : ∃ values₀, cloudIds.mapM (fun cid =>
        augmentValue cat lk true fuel em.tableName (cat.snakeCase cid) (property e cid)) =
          some values₀ := by
      refine mapM_of_isSome fun cid hcid => ?_
      have hnull : property e cid = .null := by
        have hcid' := List.all_eq_true.mp hall _ (List.mem_map_of_mem hcid)
        simpa using hcid'
      exact ⟨{ key := cat.snakeCase cid, value := .value .null }, by rw [hnull]; rfl⟩
    have hall₀ : values₀.all AugmentedValue.isNull = true := (hnulls values₀ h₀).trans hall
    rw [List.mapM_map] at hvalues
    unfold augmentValue at h₀ hvalues
    simp only [Function.comp_def] at hvalues
    simp only [h₀, hall₀, hvalues, Option.bind_eq_bind, Option.bind_some, ↓reduceIte,
      Option.pure_def]
  · next hall =>
    rw [List.mapM_map] at hvalues
    have hall' : values.all AugmentedValue.isNull = false := by
      rw [hnulls values hvalues]
      exact Bool.eq_false_iff.mpr hall
    unfold augmentValue at hvalues
    simp only [Function.comp_def] at hvalues
    simp only [hvalues, hall', Option.bind_eq_bind, Option.bind_some, Bool.false_eq_true,
      ↓reduceIte, Option.pure_def]

end Augment

section Names

variable {pg : Postgres} {cat : Catalog} {lk : Lookup} {links : Links pg} {db : Db} {fuel : Nat}
variable {t c : String} {v w : JsVal} {x : Row} {text : AugmentedValue → Literal}

def texts : List (AugmentedValue → Literal) :=
  [AugmentedValue.formatValue, AugmentedValue.assigned, AugmentedValue.compared]

theorem text_of_subQuery {a : AugmentedValue} {l : Literal} (htext : text ∈ texts)
    (hvalue : a.value = .subQuery l) (hjson : a.isJson = false) : text a = l := by
  simp only [texts, List.mem_cons, List.not_mem_nil, or_false] at htext
  have hformat : a.formatValue = l := by simp [AugmentedValue.formatValue, hvalue]
  rcases htext with rfl | rfl | rfl
  · exact hformat
  · simp [AugmentedValue.assigned, hjson, hformat]
  · simp [AugmentedValue.compared, hjson, hformat]

theorem linked_text {a : AugmentedValue} (htext : text ∈ texts) (hvalue : a.value = .value v)
    (hkind : links.kind t c = none) : Linked links t c (text a) := by
  have hformat : Linked links t c a.formatValue := by
    simp only [AugmentedValue.formatValue, hvalue]
    split
    · simp [Linked, hkind]
    · split <;> simp [Linked, hkind]
  simp only [texts, List.mem_cons, List.not_mem_nil, or_false] at htext
  rcases htext with rfl | rfl | rfl
  · exact hformat
  · unfold AugmentedValue.assigned
    split
    · simp [Linked, hkind]
    · exact hformat
  · unfold AugmentedValue.compared
    split
    · simp [Linked, hkind]
    · split
      · simp [Linked, hkind]
      · exact hformat

-- a value whose text stands for w in db, and in every renaming of db for the renamed w
structure Written (pg : Postgres) (cat : Catalog) (lk : Lookup) (links : Links pg) (db : Db)
    (text : AugmentedValue → Literal) (fuel : Nat) (t c : String) (v w : JsVal)
    (a : AugmentedValue) : Prop where
  augmented : augmentValue cat lk true fuel t c v = some a
  reads : pg.evalLiteral db t c (text a) = some w
  linked : Linked links t c (text a)
  inUse : ∀ k, links.kind t c = some k → InUse links db k w

theorem comparisons_match {table : String} {ps : List (String × JsVal)}
    (h : ∀ p ∈ ps, (p.2 = .null ↔ x p.1 = .null) ∧ (p.2 ≠ .null → ∃ a,
      Written pg cat lk links db AugmentedValue.formatValue fuel table p.1 p.2 (x p.1) a)) :
    ∃ values cs, ps.mapM (fun p => augmentValue cat lk true fuel table p.1 p.2) = some values ∧
      pg.evalConds db table (comparisons values) = some cs ∧ cs.length = ps.length ∧
      (∀ y, Postgres.matchesAll cs y = sameOn ps x y) ∧
      LinkedConds links table (comparisons values) := by
  induction ps with
  | nil => exact ⟨[], [], rfl, by simp [comparisons, Postgres.evalConds], rfl, fun _ => rfl, trivial⟩
  | cons p ps ih =>
    obtain ⟨values, cs, hvalues, hcs, hlength, hmatch, hlinked⟩ :=
      ih fun q hq => h q (List.mem_cons_of_mem _ hq)
    obtain ⟨hnull, hwritten⟩ := h p (by simp)
    obtain ⟨a, haug, heval, hlink, hone⟩ : ∃ a,
        augmentValue cat lk true fuel table p.1 p.2 = some a ∧
        pg.evalLiteral db table p.1 a.formatValue = some (x p.1) ∧
        Linked links table p.1 a.formatValue ∧
        ∀ y, Postgres.matchesAll [(p.1, a.comparison, x p.1)] y = (y p.1 == x p.1) := by
      by_cases hp : p.2 = .null
      · refine ⟨{ key := p.1, value := .value .null }, by rw [hp]; rfl, ?_, .inr rfl, fun y => ?_⟩
        · rw [hnull.mp hp]
          exact pg.input_null table p.1
        · rw [hnull.mp hp]
          simp [Postgres.matchesAll, AugmentedValue.comparison, AugmentedValue.isNull,
            AugmentedValue.formatValue]
      · obtain ⟨a, ha⟩ := hwritten hp
        obtain ⟨hkey, -, hnotNull, -⟩ := augmentValue_spec hp ha.augmented
        refine ⟨a, ha.augmented, ha.reads, ha.linked, fun y => ?_⟩
        have hx : x a.key ≠ .null := by
          rw [hkey]
          exact fun hx => hp (hnull.mpr hx)
        rw [← hkey, matchesAll_entry hnotNull hx]
        rfl
    refine ⟨a :: values, (p.1, a.comparison, x p.1) :: cs, ?_, ?_, ?_, ?_, ?_⟩
    · simp [List.mapM_cons, haug, hvalues]
    · rw [comparisons, List.map_cons, ← comparisons, (augmentValue_compares haug).1]
      simp only [Postgres.evalConds, heval, hcs]
    · simp [hlength]
    · intro y
      rw [matchesAll_eq_all, List.all_cons, ← matchesAll_eq_all, hone, hmatch]
      rfl
    · rw [comparisons, List.map_cons, ← comparisons, (augmentValue_compares haug).1]
      exact ⟨hlink, hlinked⟩

theorem Names.written (h : Names cat pg lk links db text fuel t c v w) (htext : text ∈ texts) :
    ∃ a, Written pg cat lk links db text fuel t c v w a := by
  induction h with
  | @text text fuel t c v w href hkind hreads =>
    obtain ⟨a, ha⟩ := augmentValue_isSome cat {} 0 t c v
    refine ⟨a, ?_, hreads a ha db, linked_text htext (augmentValue_value ha) hkind, ?_⟩
    · rw [augmentValue_text href, ha]
    · intro k hk
      rw [hkind] at hk
      cases hk
  | @reference text fuel t c v ref em cloudIds e x href hside hjson hentity hcloud hfound hkind hne
      hnulls _ hunique ih =>
    have hcompared : ∀ p ∈ identifying cat em cloudIds e, (p.2 = .null ↔ x p.1 = .null) ∧
        (p.2 ≠ .null → ∃ a, Written pg cat lk links db AugmentedValue.formatValue fuel
          em.tableName p.1 p.2 (x p.1) a) :=
      fun p hp => ⟨hnulls p hp, fun hnull => ih p hp hnull (by simp [texts])⟩
    obtain ⟨values, cs, hvalues, hcs, hlength, hmatch, hlinked⟩ := comparisons_match hcompared
    have hsub := recreateSubQuery_found ref.dbKey ref.key hcloud hfound hvalues
    rw [← hentity] at hsub
    obtain ⟨a, haug, hvalue, hisJson⟩ := augmentValue_reference href hside hsub
    have htexts := text_of_subQuery htext hvalue (hisJson.trans hjson)
    have hsome : ∃ cond rest, cs = cond :: rest :=
      List.exists_cons_of_ne_nil fun hnil => hne (List.length_eq_zero_iff.mp (by simpa [hnil] using hlength.symm))
    obtain ⟨cond, rest, rfl⟩ := hsome
    refine ⟨a, haug, ?_, ?_, ?_⟩
    · rw [htexts]
      simp only [Postgres.evalLiteral, hcs, funext hmatch, hunique, Postgres.scalar]
    · rw [htexts]
      exact ⟨hkind, hlinked⟩
    · intro k hk
      have hx : x ∈ db em.tableName := (List.mem_filter.mp (hunique ▸ List.mem_singleton_self x)).1
      exact ⟨em.tableName, ref.dbKey, x, hkind ▸ hk, hx, rfl⟩

end Names

end Iasql
