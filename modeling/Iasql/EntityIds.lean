import Iasql.Calculus.Dict
import Iasql.Calculus.Separated
import Iasql.Diff

namespace Iasql.EntityIds

open OrderedMap

inductive ColumnValue where
  | undefined
  | null
  | bool (b : Bool)
  | num (n : Int)
  | str (s : String)
deriving DecidableEq

namespace ColumnValue

def truthy : ColumnValue → Bool
  | undefined | null => false
  | bool b => b
  | num n => n != 0
  | str s => s != ""

-- x + ''
def text : ColumnValue → String
  | undefined => "undefined"
  | null => "null"
  | bool b => if b then "true" else "false"
  | num n => toString n
  | str s => s

-- as an element of an array that is joined
def joined : ColumnValue → String
  | undefined | null => ""
  | v => v.text

end ColumnValue

abbrev Entity := Dict String ColumnValue

def column (e : Entity) (col : String) : ColumnValue := (e.get? col).getD .undefined

-- a value can be undefined
abbrev IdFields := Dict String (Option String)

def field (fields : IdFields) (col : String) : Option String := (fields.get? col).join

def join (xs : List String) : String := String.ofList (['|'].intercalate (xs.map String.toList))

def split (s : String) : List String := (s.toList.splitOn '|').map String.ofList

-- the decorator pushes the names of properties of the class
structure CloudColumns where
  names : List String
  nonempty : names ≠ []
  nodup : names.Nodup

-- cloudColumns is none where getCloudId returns an Error
structure MapperBase where
  cloudColumns : Option CloudColumns
  primaryColumn : String := ""

namespace MapperBase

def validFields (valid : List String) (fields : IdFields) : Bool :=
  fields.keys.length == valid.length && fields.keys.all valid.contains

def generateId (m : MapperBase) (fields : IdFields) : Except String String :=
  let receiving := ", ".intercalate fields.keys
  let primary := (field fields m.primaryColumn).getD "undefined"
  match m.cloudColumns with
  | some cloudColumns =>
    if !validFields cloudColumns.names fields then
      .error ("Id generation error. Valid fields to generate id are: " ++
        ", ".intercalate cloudColumns.names ++ ". Receiving: " ++ receiving)
    else
      let out := join (cloudColumns.names.map fun col => (field fields col).getD "")
      if out = "" then .ok primary else .ok out
  | none =>
    if !validFields [m.primaryColumn] fields then
      .error ("Id generation error. Valid field to generate id is: " ++ m.primaryColumn ++
        ". Receiving: " ++ receiving)
    else .ok primary

def entityId (m : MapperBase) (e : Entity) : String :=
  let primary := (column e m.primaryColumn).text
  match m.cloudColumns with
  | some cloudColumns =>
    if cloudColumns.names.any fun col => !(column e col).truthy then primary
    else
      let out := join (cloudColumns.names.map fun col => (column e col).joined)
      if out = "" then primary else out
  | none => primary

def idFields (m : MapperBase) (id : String) : IdFields :=
  let splittedId := split id
  match m.cloudColumns with
  | some cloudColumns =>
    cloudColumns.names.zipIdx.foldl (fun fields p => fields.set p.1 splittedId[p.2]?) ∅
  | none => (∅ : IdFields).set m.primaryColumn (some (splittedId.getLast?.getD ""))

end MapperBase

section Text

variable {xs ys : List String}

theorem toList_join (xs : List String) : (join xs).toList = ['|'].intercalate (xs.map String.toList) :=
  String.toList_ofList

theorem not_mem_of_mem_split {s part : String} (h : part ∈ split s) : '|' ∉ part.toList := by
  obtain ⟨cs, hcs, rfl⟩ := List.mem_map.mp h
  rw [String.toList_ofList]
  exact Separated.not_mem_of_mem_splitOn hcs

theorem split_join (hne : xs ≠ []) (h : ∀ x ∈ xs, '|' ∉ x.toList) : split (join xs) = xs := by
  have hparts : (['|'].intercalate (xs.map String.toList)).splitOn '|' = xs.map String.toList := by
    refine List.splitOn_intercalate _ ?_ (by simpa using hne)
    intro l hl
    obtain ⟨x, hx, rfl⟩ := List.mem_map.mp hl
    exact h x hx
  rw [split, toList_join, hparts, List.map_map]
  simp

theorem join_injective (hx : ∀ x ∈ xs, '|' ∉ x.toList) (hy : ∀ y ∈ ys, '|' ∉ y.toList)
    (hxne : xs ≠ []) (hyne : ys ≠ []) (h : join xs = join ys) : xs = ys := by
  have hsplit := congrArg split h
  rwa [split_join hxne hx, split_join hyne hy] at hsplit

theorem join_eq_empty (hne : xs ≠ []) (h : join xs = "") : xs = [""] := by
  have hlist : ['|'].intercalate (xs.map String.toList) = [] := by
    rw [← toList_join, h]
    rfl
  cases xs with
  | nil => exact absurd rfl hne
  | cons x xs =>
    cases xs with
    | nil => simpa using hlist
    | cons y ys => simp at hlist

end Text

section RoundTrip

variable (columns : CloudColumns) (primaryColumn : String)

-- a class whose ids nothing but the decorator and the primary column decides
abbrev ofColumns : MapperBase := ⟨some columns, primaryColumn⟩

-- fields of all cloud columns, with values in S
structure FieldsOf (S : Set String) (fields : IdFields) : Prop where
  keys : ∀ col, col ∈ fields.keys ↔ col ∈ columns.names
  values : ∀ col v, (col, v) ∈ fields.entries → ∃ s ∈ S, v = some s

def RoundTrips (fields : IdFields) : Prop :=
  ∃ id, (ofColumns columns primaryColumn).generateId fields = .ok id ∧
    ∀ col, ((ofColumns columns primaryColumn).idFields id).get? col = fields.get? col

variable {columns primaryColumn} {S : Set String} {fields : IdFields}

theorem mem_idFields {id col : String} {v : Option String} :
    (col, v) ∈ ((ofColumns columns primaryColumn).idFields id).entries ↔
      ∃ i : Nat, columns.names[i]? = some col ∧ v = (split id)[i]? := by
  have hnodup : (keys (columns.names.zipIdx.map fun p => (p.1, (split id)[p.2]?))).Nodup := by
    have hkeys : keys (columns.names.zipIdx.map fun p => (p.1, (split id)[p.2]?)) =
        columns.names := by
      simp [keys, Function.comp_def]
    rw [hkeys]
    exact columns.nodup
  have hentries : ((ofColumns columns primaryColumn).idFields id).entries =
      columns.names.zipIdx.map fun p => (p.1, (split id)[p.2]?) := by
    have hfold := Dict.entries_foldl_set
      (columns.names.zipIdx.map fun p => (p.1, (split id)[p.2]?)) ∅
    rw [List.foldl_map] at hfold
    exact hfold.trans (ofList_of_nodup hnodup)
  rw [hentries, List.mem_map]
  constructor
  · rintro ⟨⟨c, i⟩, hmem, heq⟩
    obtain ⟨rfl, rfl⟩ := Prod.mk.inj heq
    exact ⟨i, List.mem_zipIdx_iff_getElem?.mp hmem, rfl⟩
  · rintro ⟨i, hi, rfl⟩
    exact ⟨(col, i), List.mem_zipIdx_iff_getElem?.mpr hi, rfl⟩

theorem FieldsOf.valid (h : FieldsOf columns S fields) :
    MapperBase.validFields columns.names fields = true := by
  have hperm : fields.keys.Perm columns.names :=
    (List.perm_ext_iff_of_nodup fields.nodup columns.nodup).mpr h.keys
  rw [MapperBase.validFields, hperm.length_eq]
  simpa using fun col hcol => (h.keys col).mp hcol

theorem FieldsOf.field_of_mem (h : FieldsOf columns S fields) {col : String}
    (hcol : col ∈ columns.names) : ∃ s ∈ S, fields.get? col = some (some s) := by
  obtain ⟨v, hv⟩ := Dict.mem_keys.mp ((h.keys col).mpr hcol)
  obtain ⟨s, hs, rfl⟩ := h.values col v hv
  exact ⟨s, hs, Dict.get?_eq_some.mpr hv⟩

theorem FieldsOf.get?_of_not_mem (h : FieldsOf columns S fields) {col : String}
    (hcol : col ∉ columns.names) : fields.get? col = none :=
  Dict.get?_eq_none.mpr fun hmem => hcol ((h.keys col).mp hmem)

def texts (columns : CloudColumns) (fields : IdFields) : List String :=
  columns.names.map fun col => (field fields col).getD ""

theorem texts_ne_nil : texts columns fields ≠ [] := by
  simpa [texts] using columns.nonempty

theorem FieldsOf.get?_of_texts (h : FieldsOf columns S fields) {i : Nat} {col : String}
    (hi : columns.names[i]? = some col) : fields.get? col = some (texts columns fields)[i]? := by
  obtain ⟨s, -, hs⟩ := h.field_of_mem (List.mem_of_getElem? hi)
  simp [texts, hi, field, hs]

theorem FieldsOf.idFields_iff (h : FieldsOf columns S fields) (id : String) :
    (∀ col, ((ofColumns columns primaryColumn).idFields id).get? col = fields.get? col) ↔
      ∀ i < columns.names.length, (split id)[i]? = (texts columns fields)[i]? := by
  constructor
  · intro heq i hi
    have hcol : columns.names[i]? = some columns.names[i] := List.getElem?_eq_getElem hi
    have hmem : (columns.names[i], (split id)[i]?) ∈
        ((ofColumns columns primaryColumn).idFields id).entries := mem_idFields.mpr ⟨i, hcol, rfl⟩
    have hget := heq columns.names[i]
    rw [Dict.get?_eq_some.mpr hmem, h.get?_of_texts hcol] at hget
    exact Option.some.inj hget
  · intro hparts col
    by_cases hcol : col ∈ columns.names
    · obtain ⟨i, hi, rfl⟩ := List.getElem_of_mem hcol
      have hcol : columns.names[i]? = some columns.names[i] := List.getElem?_eq_getElem hi
      rw [h.get?_of_texts hcol, ← hparts i hi]
      exact Dict.get?_eq_some.mpr (mem_idFields.mpr ⟨i, hcol, rfl⟩)
    · rw [h.get?_of_not_mem hcol, Dict.get?_eq_none, Dict.mem_keys]
      rintro ⟨v, hv⟩
      obtain ⟨i, hi, -⟩ := mem_idFields.mp hv
      exact hcol (List.mem_of_getElem? hi)

theorem FieldsOf.generateId (h : FieldsOf columns S fields) :
    (ofColumns columns primaryColumn).generateId fields =
      .ok (if join (texts columns fields) = "" then
        (field fields primaryColumn).getD "undefined" else join (texts columns fields)) := by
  simp only [MapperBase.generateId, h.valid]
  exact (apply_ite Except.ok _ _ _).symm

theorem length_texts (columns : CloudColumns) (fields : IdFields) :
    (texts columns fields).length = columns.names.length := List.length_map _

theorem FieldsOf.roundTrips_of_empty (h : FieldsOf columns S fields)
    (hempty : texts columns fields = [""]) :
    RoundTrips columns primaryColumn fields ↔ columns.names = [primaryColumn] := by
  have hjoin : join (texts columns fields) = "" := by
    rw [hempty]
    rfl
  obtain ⟨col, hcol⟩ : ∃ col, columns.names = [col] := by
    refine List.length_eq_one_iff.mp ?_
    rw [← length_texts columns fields, hempty]
    rfl
  have hget : fields.get? col = some (some "") := by
    have h0 := h.get?_of_texts (show columns.names[0]? = some col by rw [hcol]; rfl)
    rwa [hempty] at h0
  rw [RoundTrips, h.generateId, if_pos hjoin]
  by_cases hprimary : col = primaryColumn
  · subst hprimary
    refine iff_of_true ⟨_, rfl, (h.idFields_iff _).mpr ?_⟩ hcol
    intro i hi
    rw [hempty, field, hget]
    rfl
  · have habsent : field fields primaryColumn = none := by
      rw [field, h.get?_of_not_mem (by simpa [hcol] using Ne.symm hprimary)]
      rfl
    refine iff_of_false ?_ (by simpa [hcol] using hprimary)
    rintro ⟨id, hid, hfields⟩
    rw [habsent] at hid
    obtain rfl := Except.ok.inj hid
    have h0 := (h.idFields_iff _).mp hfields 0 (by simp [hcol])
    rw [hempty] at h0
    exact absurd h0 (by decide)

theorem FieldsOf.roundTrips_of_nonempty (h : FieldsOf columns S fields)
    (hjoin : join (texts columns fields) ≠ "") :
    RoundTrips columns primaryColumn fields ↔ ∀ t ∈ texts columns fields, '|' ∉ t.toList := by
  rw [RoundTrips, h.generateId, if_neg hjoin]
  constructor
  · rintro ⟨id, hid, hfields⟩ t ht
    obtain rfl := Except.ok.inj hid
    obtain ⟨i, hi, rfl⟩ := List.getElem_of_mem ht
    have hpart := (h.idFields_iff _).mp hfields i (length_texts columns fields ▸ hi)
    rw [List.getElem?_eq_getElem hi] at hpart
    exact not_mem_of_mem_split (List.mem_of_getElem? hpart)
  · intro hplain
    refine ⟨_, rfl, (h.idFields_iff _).mpr fun i _ => ?_⟩
    rw [split_join texts_ne_nil hplain]

end RoundTrip

section Identity

variable (columns : CloudColumns) (primaryColumn : String) (S : Set String)

-- all cloud columns of e are set, to values in S
def SetIn (e : Entity) : Prop :=
  ∀ col ∈ columns.names, ∃ v ∈ S, v ≠ "" ∧ column e col = .str v

def SameColumns (e f : Entity) : Prop := ∀ col ∈ columns.names, column e col = column f col

-- findDiff pairs entities of one identity only, and keeps the others each on its own side
structure Apart {E : Type} (same : E → E → Prop) (db cloud : List E) (diff : EntityDiff E) : Prop where
  changed : ∀ d c, (d, c) ∈ diff.entitiesChanged → same d c
  dbOnly : ∀ e ∈ db, (∀ c ∈ cloud, ¬ same e c) → ∃ d ∈ diff.entitiesInDbOnly, same d e
  awsOnly : ∀ e ∈ cloud, (∀ d ∈ db, ¬ same d e) → ∃ c ∈ diff.entitiesInAwsOnly, same c e

structure Faithful : Prop where
  inverse : ∀ fields, FieldsOf columns S fields → RoundTrips columns primaryColumn fields
  injective : ∀ e f, SetIn columns S e → SetIn columns S f →
    ((ofColumns columns primaryColumn).entityId e = (ofColumns columns primaryColumn).entityId f ↔
      SameColumns columns e f)
  apart : ∀ db cloud comparator, (∀ e ∈ db, SetIn columns S e) → (∀ e ∈ cloud, SetIn columns S e) →
    Apart (SameColumns columns) db cloud
      (findDiff db cloud (ofColumns columns primaryColumn).entityId comparator)

variable {columns primaryColumn S} {fields : IdFields}

theorem apart_of_injective {E : Type} {same : E → E → Prop} {idGen : E → String}
    {db cloud : List E} (comparator : E → E → Bool)
    (hid : ∀ e f, e ∈ db ++ cloud → f ∈ db ++ cloud → (idGen e = idGen f ↔ same e f)) :
    Apart same db cloud (findDiff db cloud idGen comparator) := by
  refine ⟨fun d c hmem => ?_, fun e he hne => ?_, fun e he hne => ?_⟩
  · obtain ⟨i, hd, hc, -⟩ := mem_entitiesChanged.mp hmem
    obtain ⟨hdid, hd⟩ := lastWith_key hd
    obtain ⟨hcid, hc⟩ := lastWith_key hc
    exact (hid d c (by simp [hd]) (by simp [hc])).mp (hdid.trans hcid.symm)
  · have habsent : lastWith idGen cloud (idGen e) = none :=
      lastWith_eq_none.mpr fun c hc heq =>
        hne c hc ((hid e c (by simp [he]) (by simp [hc])).mp heq.symm)
    cases hlast : lastWith idGen db (idGen e) with
    | none => exact absurd rfl (lastWith_eq_none.mp hlast e he)
    | some d =>
      obtain ⟨hdid, hd⟩ := lastWith_key hlast
      exact ⟨d, mem_entitiesInDbOnly.mpr ⟨_, hlast, habsent⟩,
        (hid d e (by simp [hd]) (by simp [he])).mp hdid⟩
  · have habsent : lastWith idGen db (idGen e) = none :=
      lastWith_eq_none.mpr fun d hd heq =>
        hne d hd ((hid d e (by simp [hd]) (by simp [he])).mp heq)
    cases hlast : lastWith idGen cloud (idGen e) with
    | none => exact absurd rfl (lastWith_eq_none.mp hlast e he)
    | some c =>
      obtain ⟨hcid, hc⟩ := lastWith_key hlast
      exact ⟨c, mem_entitiesInAwsOnly.mpr ⟨_, hlast, habsent⟩,
        (hid c e (by simp [hc]) (by simp [he])).mp hcid⟩

theorem entityId_of_set {e : Entity} (h : SetIn columns S e) :
    (ofColumns columns primaryColumn).entityId e =
      join (columns.names.map fun col => (column e col).joined) := by
  have hset : (columns.names.any fun col => !(column e col).truthy) = false := by
    refine List.any_eq_false.mpr fun col hcol => ?_
    obtain ⟨v, -, hne, hv⟩ := h col hcol
    simp [hv, ColumnValue.truthy, hne]
  have hjoin : join (columns.names.map fun col => (column e col).joined) ≠ "" := by
    intro hempty
    have hone := join_eq_empty (by simpa using columns.nonempty) hempty
    obtain ⟨col, hcol, hjoined⟩ := List.mem_map.mp (by rw [hone]; simp :
      "" ∈ columns.names.map fun col => (column e col).joined)
    obtain ⟨v, -, hne, hv⟩ := h col hcol
    rw [hv] at hjoined
    exact hne hjoined
  simp only [MapperBase.entityId, hset, if_neg hjoin]
  rfl

theorem injective_of_plain (hplain : ∀ v ∈ S, '|' ∉ v.toList) {e f : Entity}
    (he : SetIn columns S e) (hf : SetIn columns S f) :
    (ofColumns columns primaryColumn).entityId e = (ofColumns columns primaryColumn).entityId f ↔
      SameColumns columns e f := by
  rw [entityId_of_set he, entityId_of_set hf]
  have hbars : ∀ {g : Entity}, SetIn columns S g →
      ∀ x ∈ columns.names.map fun col => (column g col).joined, '|' ∉ x.toList := by
    intro g hg x hx
    obtain ⟨col, hcol, rfl⟩ := List.mem_map.mp hx
    obtain ⟨v, hv, -, hval⟩ := hg col hcol
    rw [hval]
    exact hplain v hv
  constructor
  · intro h col hcol
    have hlists := join_injective (hbars he) (hbars hf) (by simpa using columns.nonempty)
      (by simpa using columns.nonempty) h
    have hjoined := List.map_inj_left.mp hlists col hcol
    obtain ⟨v, -, -, hv⟩ := he col hcol
    obtain ⟨w, -, -, hw⟩ := hf col hcol
    rw [hv, hw] at hjoined ⊢
    exact congrArg ColumnValue.str hjoined
  · intro h
    rw [List.map_congr_left fun col hcol => congrArg ColumnValue.joined (h col hcol)]

def constFields (columns : CloudColumns) (v : String) : IdFields :=
  ⟨columns.names.map fun col => (col, some v), by
    simpa [keys, Function.comp_def] using columns.nodup⟩

theorem fieldsOf_constFields {v : String} (hv : v ∈ S) :
    FieldsOf columns S (constFields columns v) := by
  constructor
  · intro col
    simp [Dict.keys, keys, constFields]
  · intro col w hmem
    obtain ⟨_, -, heq⟩ := List.mem_map.mp hmem
    exact ⟨v, hv, (Prod.mk.inj heq).2.symm⟩

theorem texts_constFields (v : String) :
    texts columns (constFields columns v) = columns.names.map fun _ => v := by
  refine List.map_congr_left fun col hcol => ?_
  have hmem : (col, some v) ∈ (constFields columns v).entries := List.mem_map.mpr ⟨col, hcol, rfl⟩
  rw [field, Dict.get?_eq_some.mpr hmem]
  rfl

theorem mem_texts (h : FieldsOf columns S fields) {t : String} (ht : t ∈ texts columns fields) :
    t ∈ S := by
  obtain ⟨col, hcol, rfl⟩ := List.mem_map.mp ht
  obtain ⟨s, hs, hget⟩ := h.field_of_mem hcol
  rw [field, hget]
  exact hs

theorem faithful_iff (columns : CloudColumns) (primaryColumn : String) (S : Set String) :
    Faithful columns primaryColumn S ↔
      (∀ v ∈ S, '|' ∉ v.toList) ∧
        ("" ∈ S → columns.names.length = 1 → columns.names = [primaryColumn]) := by
  constructor
  · intro h
    constructor
    · intro v hv hbar
      have hne : v ≠ "" := by
        rintro rfl
        cases hbar
      have hmem : v ∈ texts columns (constFields columns v) := by
        rw [texts_constFields]
        obtain ⟨col, hcol⟩ := List.exists_mem_of_ne_nil _ columns.nonempty
        exact List.mem_map.mpr ⟨col, hcol, rfl⟩
      have hjoin : join (texts columns (constFields columns v)) ≠ "" := by
        intro hempty
        rw [join_eq_empty texts_ne_nil hempty] at hmem
        exact hne (List.mem_singleton.mp hmem)
      have hfields : FieldsOf columns S (constFields columns v) := fieldsOf_constFields hv
      exact (hfields.roundTrips_of_nonempty hjoin).mp (h.inverse _ hfields) v hmem hbar
    · intro hempty hlength
      obtain ⟨col, hcol⟩ := List.length_eq_one_iff.mp hlength
      have hfields : FieldsOf columns S (constFields columns "") := fieldsOf_constFields hempty
      refine (hfields.roundTrips_of_empty ?_).mp (h.inverse _ hfields)
      rw [texts_constFields, hcol]
      rfl
  · rintro ⟨hplain, hempty⟩
    have hinjective : ∀ e f, SetIn columns S e → SetIn columns S f →
        ((ofColumns columns primaryColumn).entityId e =
          (ofColumns columns primaryColumn).entityId f ↔ SameColumns columns e f) :=
      fun e f => injective_of_plain hplain
    refine ⟨fun fields hfields => ?_, hinjective, ?_⟩
    · by_cases hjoin : join (texts columns fields) = ""
      · have htexts := join_eq_empty texts_ne_nil hjoin
        refine (hfields.roundTrips_of_empty htexts).mpr (hempty ?_ ?_)
        · exact mem_texts hfields (by simp [htexts])
        · rw [← length_texts columns fields, htexts]
          rfl
      · exact (hfields.roundTrips_of_nonempty hjoin).mpr fun t ht =>
          hplain t (mem_texts hfields ht)
    · intro db cloud comparator hdb hcloud
      have hset : ∀ e ∈ db ++ cloud, SetIn columns S e := fun e he =>
        (List.mem_append.mp he).elim (hdb e) (hcloud e)
      exact apart_of_injective comparator fun e f he hf =>
        hinjective e f (hset e he) (hset f hf)

end Identity

section BucketObject

def bucketObject : CloudColumns := ⟨["key", "bucketName"], by decide, by decide⟩

def objectFields (key bucketName : String) : IdFields :=
  ⟨[("key", some key), ("bucketName", some bucketName)], by simp [keys]⟩

def object (id : Int) (key bucketName : String) : Entity :=
  ⟨[("id", .num id), ("key", .str key), ("bucketName", .str bucketName)], by simp [keys]⟩

theorem barred_key_misread :
    (ofColumns bucketObject "id").generateId (objectFields "a|b" "c") = .ok "a|b|c" ∧
      (ofColumns bucketObject "id").idFields "a|b|c" = objectFields "a" "b" ∧
      (ofColumns bucketObject "id").entityId (object 1 "a|b" "c") =
        (ofColumns bucketObject "id").entityId (object 2 "a" "b|c") ∧
      column (object 1 "a|b" "c") "key" ≠ column (object 2 "a" "b|c") "key" ∧
      ¬ Faithful bucketObject "id" Set.univ := by
  have hid : (ofColumns bucketObject "id").entityId (object 1 "a|b" "c") =
      (ofColumns bucketObject "id").entityId (object 2 "a" "b|c") := by decide
  have hkey : column (object 1 "a|b" "c") "key" ≠ column (object 2 "a" "b|c") "key" := by decide
  refine ⟨by decide, by decide, hid, hkey, fun h => ?_⟩
  have hset : ∀ {id : Int} {key bucketName : String}, key ≠ "" → bucketName ≠ "" →
      SetIn bucketObject Set.univ (object id key bucketName) := by
    intro id key bucketName hk hb col hcol
    have hcol : col = "key" ∨ col = "bucketName" := by simpa [bucketObject] using hcol
    rcases hcol with rfl | rfl
    · exact ⟨key, trivial, hk, rfl⟩
    · exact ⟨bucketName, trivial, hb, rfl⟩
  have hsame := (h.injective _ _ (hset (by decide) (by decide)) (hset (by decide) (by decide))).mp
    hid
  exact hkey (hsame "key" (by decide))

end BucketObject

end Iasql.EntityIds
