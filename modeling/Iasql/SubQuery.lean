import Iasql.Reference

namespace Iasql

section Placeholders

variable {values : List AugmentedValue}

-- the columns that are not marked, each compared with its own value
def comparisonsBut (marked : AugmentedValue → Bool) (values : List AugmentedValue) : Conds :=
  comparisons (values.filter fun v => !marked v)

-- a value with resolve support is followed by such values only
def ResolvedLast (values : List AugmentedValue) : Prop :=
  values.Pairwise fun v w => v.awsResolveSupport = true → w.awsResolveSupport = true

def filled (values : List AugmentedValue) : Conds :=
  List.zipWith (fun v arg => (arg.key, v.comparison, arg.formatValue))
    (values.filter fun v => !v.awsResolveSupport) values

theorem filled_unresolved {v : AugmentedValue} (hv : v.awsResolveSupport = false) :
    filled (v :: values) = (v.key, v.comparison, v.formatValue) :: filled values := by
  simp [filled, hv]

theorem filled_resolved {v : AugmentedValue} (hv : v.awsResolveSupport = true)
    (hkey : v.key ∉ values.map AugmentedValue.key) :
    filled (v :: values) = comparisonsBut (·.awsResolveSupport) values ↔
      ∀ w ∈ values, w.awsResolveSupport = true := by
  unfold filled comparisonsBut comparisons
  cases hkept : values.filter fun v => !v.awsResolveSupport with
  | nil =>
    have hall : ∀ w ∈ values, w.awsResolveSupport = true := by
      simpa using List.filter_eq_nil_iff.mp hkept
    exact iff_of_true (by simp [hv, hkept]) hall
  | cons w kept =>
    have hw : w ∈ values ∧ w.awsResolveSupport = false := by
      have hmem : w ∈ values.filter fun v => !v.awsResolveSupport := by simp [hkept]
      simpa using List.mem_filter.mp hmem
    refine iff_of_false (fun heq => ?_) fun hall => by simp [hall w hw.1] at hw
    simp only [hv, Bool.not_true, Bool.false_eq_true, not_false_eq_true, List.filter_cons_of_neg,
      hkept, List.zipWith_cons_cons, List.map_cons, List.cons.injEq, Prod.mk.injEq] at heq
    exact hkey (heq.1.1 ▸ List.mem_map_of_mem hw.1)

theorem filled_iff (hnodup : (values.map AugmentedValue.key).Nodup) :
    filled values = comparisonsBut (·.awsResolveSupport) values ↔ ResolvedLast values := by
  induction values with
  | nil => exact iff_of_true rfl List.Pairwise.nil
  | cons v values ih =>
    obtain ⟨hkey, hrest⟩ := List.nodup_cons.mp hnodup
    unfold ResolvedLast
    rw [List.pairwise_cons]
    cases hv : v.awsResolveSupport with
    | false =>
      rw [filled_unresolved hv, ← ResolvedLast, ← ih hrest]
      simp [comparisonsBut, comparisons, hv]
    | true =>
      have hbut : comparisonsBut (·.awsResolveSupport) (v :: values) =
          comparisonsBut (·.awsResolveSupport) values := by simp [comparisonsBut, hv]
      rw [hbut, filled_resolved hv hkey]
      constructor
      · intro hall
        exact ⟨fun w hw _ => hall w hw, List.pairwise_of_forall_mem_list fun _ _ w hw _ => hall w hw⟩
      · exact fun h w hw => h.1 w hw rfl

theorem subQueryOn_iff (column table : String)
    (hnodup : (values.map AugmentedValue.key).Nodup) :
    subQueryOn column table values =
        .subQuery column table (comparisonsBut (·.awsResolveSupport) values) ↔
      ResolvedLast values := by
  rw [← filled_iff hnodup]
  exact ⟨fun h => (Literal.subQuery.inj h).2.2, fun h => congrArg (Literal.subQuery column table) h⟩

end Placeholders

section Marked

variable (cat : Catalog) (em : EntityMetadata)

-- the decorators mark the properties of the class
def marked (v : AugmentedValue) : Bool :=
  (cat.getAwsResolveSupport (.target em.name)).any fun c => cat.snakeCase c == v.key

theorem comparisonsBut_eq_iff {p : AugmentedValue → Bool} {values : List AugmentedValue} :
    comparisons values = comparisonsBut p values ↔ ∀ v ∈ values, p v = false := by
  constructor
  · intro h
    have hlength := congrArg List.length h
    simp only [comparisons, comparisonsBut, List.length_map] at hlength
    have hall := List.length_filter_eq_length_iff.mp hlength.symm
    simpa using hall
  · intro h
    have hall : (values.filter fun v => !p v) = values :=
      List.filter_eq_self.mpr fun v hv => by rw [h v hv]; rfl
    rw [comparisonsBut, hall]

-- the values are filled in order just when those with resolve support come last, and the
-- columns that the decorators mark are left out just when there are none
theorem subQuery_columns_iff {flagged : List AugmentedValue}
    (hnodup : (flagged.map AugmentedValue.key).Nodup) (column table : String)
    (lk : Lookup) (fuel : Nat) {cloudIds : List String} (dbKey key : String) {value : JsVal}
    {e : Columns} {values : List AugmentedValue} (hcloud : em.cloudIds = some cloudIds)
    (hfound : lookedUp lk em key value = some e)
    (hvalues : (identifying cat em cloudIds e).mapM (fun p =>
      augmentValue cat lk true fuel em.tableName p.1 p.2) = some values) :
    (subQueryOn column table flagged =
        .subQuery column table (comparisonsBut (·.awsResolveSupport) flagged) ↔
      ResolvedLast flagged) ∧
    (recreateSubQuery cat lk true (fuel + 1) dbKey key value (some em) =
        some (.subQuery dbKey em.tableName (comparisonsBut (marked cat em) values)) ↔
      ∀ v ∈ values, marked cat em v = false) := by
  refine ⟨subQueryOn_iff column table hnodup, ?_⟩
  rw [recreateSubQuery_found dbKey key hcloud hfound hvalues, ← comparisonsBut_eq_iff]
  constructor
  · intro h
    exact (Literal.subQuery.inj (Option.some.inj h)).2.2
  · intro h
    rw [h]

def instanceEntity : EntityMetadata where
  name := "Instance"
  tableName := "instance"
  ownColumns := [{ databaseName := "id", propertyName := "id", isPrimary := true },
    { databaseName := "ami", propertyName := "ami" },
    { databaseName := "region", propertyName := "region" }]
  cloudIds := some ["ami", "region"]

def instanceCatalog (resolved : List String) : Catalog where
  mapperEntities t := if t = "instance" then some [instanceEntity] else none
  entity n := if n = "Instance" then some instanceEntity else none
  awsResolveSupport := [("Instance", resolved)]
  snakeCase := id

def instanceLookup : Lookup where
  findOne _ _ _ := some [("id", .num 1), ("ami", .str "resolve:ssm:ami"), ("region", .str "us-east-2")]

def regionOnly : Literal := .subQuery "id" "instance" [("region", .equals, .quoted (.str "us-east-2"))]

def amiAndRegion : Literal := .subQuery "id" "instance"
  [("ami", .equals, .quoted (.str "resolve:ssm:ami")),
    ("region", .equals, .quoted (.str "us-east-2"))]

def amiFirst (resolved : Bool) : List AugmentedValue :=
  [{ key := "ami", value := .value (.str "resolve:ssm:ami"), awsResolveSupport := resolved },
    { key := "region", value := .value (.str "us-east-2") }]

-- a marked column is compared, and a value known to be marked would take the place of another's
theorem marked_column_selected :
    recreateSubQuery (instanceCatalog ["ami"]) instanceLookup true 1 "id" "id" (.num 1)
        (some instanceEntity) = some amiAndRegion ∧
      Literal.subQuery "id" "instance" (comparisonsBut (marked (instanceCatalog ["ami"]) instanceEntity)
        (amiFirst false)) = regionOnly ∧
      amiAndRegion ≠ regionOnly ∧
      subQueryOn "id" "instance" (amiFirst true) =
        .subQuery "id" "instance" [("ami", .equals, .quoted (.str "resolve:ssm:ami"))] ∧
      subQueryOn "id" "instance" (amiFirst true) ≠ regionOnly := by
  refine ⟨rfl, rfl, fun h => ?_, rfl, fun h => ?_⟩
  · have hlength := congrArg List.length (Literal.subQuery.inj h).2.2
    cases hlength
  · have hcolumns := congrArg (List.map Prod.fst) (Literal.subQuery.inj h).2.2
    revert hcolumns
    decide

theorem unmarked_columns_selected :
    recreateSubQuery (instanceCatalog []) instanceLookup true 1 "id" "id" (.num 1)
      (some instanceEntity) = some (.subQuery "id" "instance"
        (comparisonsBut (marked (instanceCatalog []) instanceEntity) (amiFirst false))) := by
  have hnodup : ((amiFirst false).map AugmentedValue.key).Nodup := by decide
  have hcloud : instanceEntity.cloudIds = some ["ami", "region"] := rfl
  have hfound : lookedUp instanceLookup instanceEntity "id" (.num 1) = some
      [("id", .num 1), ("ami", .str "resolve:ssm:ami"), ("region", .str "us-east-2")] := rfl
  have hvalues : (identifying (instanceCatalog []) instanceEntity ["ami", "region"]
      [("id", .num 1), ("ami", .str "resolve:ssm:ami"), ("region", .str "us-east-2")]).mapM
      (fun p => augmentValue (instanceCatalog []) instanceLookup true 0 instanceEntity.tableName
        p.1 p.2) = some (amiFirst false) := rfl
  have hselected := (subQuery_columns_iff (instanceCatalog []) instanceEntity hnodup "id" "instance"
    instanceLookup 0 "id" "id" hcloud hfound hvalues).2
  exact hselected.mpr (by decide)

end Marked

end Iasql
