import Iasql.Calculus.OwnKeys
import Iasql.FullRead

namespace Iasql.Dynamo

open OrderedMap OwnKeys Aws

section Objects

-- the key is a canonical decimal below 2^32 - 1
def arrayIndex (s : String) : Option Nat :=
  let n := s.toList.foldl (fun n c => 10 * n + (c.toNat - '0'.toNat)) 0
  if s.toList.all Char.isDigit && s == toString n && n < 4294967295 then some n else none

-- the stored text of the column, one attribute after the other
structure KeyText where
  attributes : List (String × String)
  distinct : (keys attributes).Nodup
  size : attributes.length = 1 ∨ attributes.length = 2

def KeyText.parse (text : KeyText) : List (String × Option String) :=
  fromEntries arrayIndex (text.attributes.map fun p => (p.1, some p.2))

-- the table as it is read from the database
def stored (text : KeyText) (e : DynamoTable) : DynamoTable := { e with primaryKey := text.parse }

end Objects

section Mapper

inductive KeyType where
  | hash | range
deriving DecidableEq

def KeyType.text : KeyType → String
  | .hash => "HASH"
  | .range => "RANGE"

structure CreateTableInput where
  tableName : String
  tableClass : String
  billingMode : String
  attributeDefinitions : List (String × Option String)
  keySchema : List (String × KeyType)
  provisionedThroughput : Option (Nat × Nat) := none
deriving DecidableEq

def schemaOf (names : List String) : List (String × KeyType) :=
  names.zipIdx.map fun p => (p.1, if p.2 = 0 then .hash else .range)

def createInput (e : DynamoTable) : CreateTableInput where
  tableName := e.tableName
  tableClass := e.tableClass
  billingMode := if e.throughput = .payPerRequest then "PAY_PER_REQUEST" else "PROVISIONED"
  attributeDefinitions := e.primaryKey
  keySchema := schemaOf (keys e.primaryKey)
  provisionedThroughput :=
    match e.throughput with
    | .payPerRequest => none
    | .provisioned readCapacityUnits writeCapacityUnits => some (readCapacityUnits, writeCapacityUnits)

def primaryKey (dynamo : TableDescription) : List (String × Option String) :=
  fromEntries arrayIndex (((hashFirst dynamo.keySchema).filter (Aws.truthy ·.1)).map fun ks =>
    (ks.1.getD "", find (ks.1.getD "") (fromEntries arrayIndex dynamo.attributeDefinitions)))

def dynamoMapper (dynamo : TableDescription) (region : String) : Except Thrown DynamoTable :=
  match dynamo.tableName with
  | none => .error (.error "Did not get a table name from AWS")
  | some tableName => .ok {
      tableName
      tableClass := dynamo.tableClass.getD "STANDARD"
      throughput :=
        if dynamo.billingMode == some "PAY_PER_REQUEST" then .payPerRequest
        else .provisioned (dynamo.readCapacityUnits.getD 0) (dynamo.writeCapacityUnits.getD 0)
      tableId := dynamo.tableId
      primaryKey := primaryKey dynamo
      createdAt := dynamo.creationDateTime
      region }

-- what AWS answers for a table: its keys and attributes in any order
structure Describes (req : CreateTableInput) (dynamo : TableDescription) : Prop where
  tableName : dynamo.tableName = some req.tableName
  keySchema : dynamo.keySchema.Perm (req.keySchema.map fun ks => (some ks.1, some ks.2.text))
  attributeDefinitions :
    (dynamo.attributeDefinitions.map fun ad => (ad.1, some ad.2)).Perm req.attributeDefinitions

-- _.isEqual of two objects, whatever the order of their keys
def sameEntries (m n : List (String × Option String)) : Bool :=
  m.length == n.length && m.all fun p => find p.1 n == some p.2

def equals (a b : DynamoTable) : Bool :=
  a.tableName == b.tableName && a.tableClass == b.tableClass && a.throughput == b.throughput &&
    a.tableId == b.tableId && sameEntries a.primaryKey b.primaryKey && a.createdAt == b.createdAt

end Mapper

section Keys

-- the roles of the key are those of the text, and the key is read back as it is written
structure KeepsKey (text : KeyText) (e : DynamoTable) : Prop where
  roles : (createInput (stored text e)).keySchema = schemaOf (keys text.attributes)
  reads : ∀ dynamo region, Describes (createInput (stored text e)) dynamo →
    (dynamoMapper dynamo region).map (·.primaryKey) = .ok (text.attributes.map fun p => (p.1, some p.2))

-- no attribute goes ahead of one that is written before it
def InOrder (text : KeyText) : Prop := (keys text.attributes).Pairwise fun k l => ¬ Ahead arrayIndex l k

def Named (text : KeyText) : Prop := ∀ k ∈ keys text.attributes, k ≠ ""

variable {text : KeyText} {e : DynamoTable}

theorem size_cases (text : KeyText) :
    (∃ p, text.attributes = [p]) ∨ ∃ p q, text.attributes = [p, q] ∧ p.1 ≠ q.1 := by
  rcases text.size with h | h
  · exact .inl (List.length_eq_one_iff.mp h)
  · obtain ⟨p, q, hpq⟩ := List.length_eq_two.mp h
    refine .inr ⟨p, q, hpq, fun heq => ?_⟩
    have hdistinct := text.distinct
    rw [hpq] at hdistinct
    exact (List.nodup_cons.mp hdistinct).1 (List.mem_singleton.mpr heq)

theorem parse_eq (text : KeyText) : text.parse = ownOrder arrayIndex (text.attributes.map fun p => (p.1, some p.2)) := by
  refine fromEntries_of_nodup ?_
  have hkeys : keys (text.attributes.map fun p => (p.1, some p.2)) = keys text.attributes := by
    rw [keys, List.map_map]
    rfl
  rw [hkeys]
  exact text.distinct

theorem parse_eq_iff : text.parse = text.attributes.map (fun p => (p.1, some p.2)) ↔ InOrder text := by
  rw [parse_eq, InOrder]
  rcases size_cases text with ⟨p, hp⟩ | ⟨p, q, hpq, hne⟩
  · rw [hp]
    exact iff_of_true ownOrder_singleton (List.pairwise_singleton _ _)
  · rw [hpq, List.map_cons, List.map_singleton, ownOrder_pair_iff hne]
    simp [keys]

theorem schemaOf_inj {ks ls : List String} (h : schemaOf ks = schemaOf ls) : ks = ls := by
  have hfst : ∀ ks : List String, (schemaOf ks).map Prod.fst = ks := by
    intro ks
    rw [schemaOf, List.map_map]
    exact List.zipIdx_map_fst 0 ks
  rw [← hfst ks, h, hfst]

theorem keys_typed (attributes : List (String × String)) :
    keys (attributes.map fun p => (p.1, some p.2)) = keys attributes := by
  rw [keys, List.map_map]
  rfl

theorem roles_iff : (createInput (stored text e)).keySchema = schemaOf (keys text.attributes) ↔ InOrder text := by
  have hroles : (createInput (stored text e)).keySchema = schemaOf (keys text.parse) := rfl
  rw [hroles, ← parse_eq_iff]
  refine ⟨fun h => ?_, fun h => by rw [h, keys_typed]⟩
  have hsame := schemaOf_inj h
  rw [parse_eq] at hsame ⊢
  rcases size_cases text with ⟨p, hp⟩ | ⟨p, q, hpq, hne⟩
  · rw [hp]
    exact ownOrder_singleton
  · rw [hpq, List.map_cons, List.map_singleton] at hsame ⊢
    by_cases hahead : Ahead arrayIndex q.1 p.1
    · rw [ownOrder_of_ahead hahead] at hsame
      exact absurd (List.cons.inj hsame).1.symm hne
    · exact ownOrder_of_not_ahead hahead

-- the description that lists what was sent
def described (req : CreateTableInput) : TableDescription where
  tableName := some req.tableName
  keySchema := req.keySchema.map fun ks => (some ks.1, some ks.2.text)
  attributeDefinitions := req.attributeDefinitions.map fun ad => (ad.1, ad.2.getD "")

theorem describes_described (text : KeyText) (e : DynamoTable) :
    Describes (createInput (stored text e)) (described (createInput (stored text e))) where
  tableName := rfl
  keySchema := .refl _
  attributeDefinitions := by
    refine .of_eq ?_
    rw [described, List.map_map]
    refine (List.map_congr_left fun ad had => ?_).trans (List.map_id _)
    have hparse : ad ∈ text.parse := had
    rw [parse_eq, ownOrder_perm.mem_iff] at hparse
    obtain ⟨p, -, rfl⟩ := List.mem_map.mp hparse
    rfl

-- an attribute without a name is dropped
theorem ne_empty_of_mem_primaryKey {dynamo : TableDescription} {p : String × Option String}
    (h : p ∈ primaryKey dynamo) : p.1 ≠ "" := by
  have hin := ownOrder_perm.mem_iff.mp h
  obtain ⟨ks, hks, rfl⟩ := List.mem_map.mp (mem_of_mem_ofList hin)
  have hname := (List.mem_filter.mp hks).2
  intro hempty
  rw [Aws.truthy] at hname
  dsimp only at hempty
  rw [hempty] at hname
  cases hname

theorem hashFirst_schemaOf {keySchema : List (Option String × Option String)}
    (h : keySchema.Perm ((schemaOf (keys text.attributes)).map fun ks => (some ks.1, some ks.2.text))) :
    hashFirst keySchema = (keys text.attributes).zipIdx.map fun p => (some p.1, some (if p.2 = 0 then "HASH" else "RANGE")) := by
  have hhash := h.filter (·.2 == some "HASH")
  have hrange := h.filter (·.2 != some "HASH")
  rcases size_cases text with ⟨p, hp⟩ | ⟨p, q, hpq, -⟩
  · rw [hp] at hhash hrange ⊢
    rw [hashFirst, List.perm_singleton.mp hhash, List.perm_nil.mp hrange]
    rfl
  · rw [hpq] at hhash hrange ⊢
    rw [hashFirst, List.perm_singleton.mp hhash, List.perm_singleton.mp hrange]
    rfl

theorem find_definition {definitions : List (String × String)}
    (h : (definitions.map fun ad => (ad.1, some ad.2)).Perm (text.attributes.map fun p => (p.1, some p.2)))
    {p : String × String} (hp : p ∈ text.attributes) : find p.1 (fromEntries arrayIndex definitions) = some p.2 := by
  have hkeys := h.map Prod.fst
  have hnodup : (keys definitions).Nodup := by
    rw [List.map_map, List.map_map] at hkeys
    have hperm : (keys definitions).Perm (keys text.attributes) := hkeys
    exact hperm.nodup_iff.mpr text.distinct
  rw [find_eq_some (nodup_fromEntries _), fromEntries_of_nodup hnodup, ownOrder_perm.mem_iff]
  have hmem : (p.1, some p.2) ∈ definitions.map fun ad => (ad.1, some ad.2) :=
    h.mem_iff.mpr (List.mem_map.mpr ⟨p, hp, rfl⟩)
  obtain ⟨ad, had, heq⟩ := List.mem_map.mp hmem
  have hsame : ad = p := Prod.ext (Prod.ext_iff.mp heq).1 (Option.some.inj (Prod.ext_iff.mp heq).2)
  exact hsame ▸ had

theorem truthy_of_ne {k : String} (h : k ≠ "") : Aws.truthy (some k) = true := by
  simpa [Aws.truthy] using h

theorem primaryKey_of_inOrder {dynamo : TableDescription} (horder : InOrder text) (hnamed : Named text)
    (h : Describes (createInput (stored text e)) dynamo) :
    primaryKey dynamo = text.attributes.map fun p => (p.1, some p.2) := by
  have hparse := parse_eq_iff.mpr horder
  have hschema : dynamo.keySchema.Perm
      ((schemaOf (keys text.attributes)).map fun ks => (some ks.1, some ks.2.text)) := by
    have hsent : (createInput (stored text e)).keySchema = schemaOf (keys text.attributes) := roles_iff.mpr horder
    exact hsent ▸ h.keySchema
  have hdefinitions : (dynamo.attributeDefinitions.map fun ad => (ad.1, some ad.2)).Perm
      (text.attributes.map fun p => (p.1, some p.2)) := by
    have hsent : (createInput (stored text e)).attributeDefinitions = text.attributes.map fun p => (p.1, some p.2) := hparse
    exact hsent ▸ h.attributeDefinitions
  have hfound := fun p hp => @find_definition text _ hdefinitions p hp
  rw [primaryKey, hashFirst_schemaOf hschema]
  refine .trans (congrArg (fromEntries arrayIndex) ?_) hparse
  rcases size_cases text with ⟨p, hp⟩ | ⟨p, q, hpq, -⟩
  · rw [hp] at hfound ⊢
    have hname : Aws.truthy (some p.1) = true := truthy_of_ne (hnamed p.1 (by simp [hp, keys]))
    simp [keys, hname, hfound p (by simp)]
  · rw [hpq] at hfound ⊢
    have hname : Aws.truthy (some p.1) = true := truthy_of_ne (hnamed p.1 (by simp [hpq, keys]))
    have hname' : Aws.truthy (some q.1) = true := truthy_of_ne (hnamed q.1 (by simp [hpq, keys]))
    simp [keys, hname, hname', hfound p (by simp), hfound q (by simp)]

theorem keepsKey_iff (text : KeyText) (e : DynamoTable) : KeepsKey text e ↔ InOrder text ∧ Named text := by
  constructor
  · intro h
    refine ⟨roles_iff.mp h.roles, fun k hk => ?_⟩
    have hread := h.reads _ e.region (describes_described text e)
    have hkey : primaryKey (described (createInput (stored text e))) = text.attributes.map fun p => (p.1, some p.2) :=
      Except.ok.inj hread
    obtain ⟨p, hp, rfl⟩ := List.mem_map.mp hk
    have hmem : (p.1, some p.2) ∈ primaryKey (described (createInput (stored text e))) :=
      hkey ▸ List.mem_map.mpr ⟨p, hp, rfl⟩
    exact ne_empty_of_mem_primaryKey hmem
  · rintro ⟨horder, hnamed⟩
    refine ⟨roles_iff.mpr horder, fun dynamo region h => ?_⟩
    rw [dynamoMapper, h.tableName]
    exact congrArg Except.ok (primaryKey_of_inOrder horder hnamed h)

end Keys

section Comparison

variable {ta tb : KeyText} {a b : DynamoTable} {m n : List (String × Option String)}

structure SameColumns (a b : DynamoTable) : Prop where
  tableName : a.tableName = b.tableName
  tableClass : a.tableClass = b.tableClass
  throughput : a.throughput = b.throughput
  tableId : a.tableId = b.tableId
  createdAt : a.createdAt = b.createdAt

theorem sameEntries_iff (hm : (keys m).Nodup) (hn : (keys n).Nodup) : sameEntries m n = true ↔ m.Perm n := by
  rw [sameEntries, Bool.and_eq_true, beq_iff_eq, List.all_eq_true]
  have hfind : ∀ p : String × Option String, (find p.1 n == some p.2) = true ↔ p ∈ n := by
    intro p
    rw [beq_iff_eq, find_eq_some hn]
  constructor
  · rintro ⟨hlen, hall⟩
    have hsub : m ⊆ n := fun p hp => (hfind p).mp (hall p hp)
    exact (hm.of_map.subperm hsub).perm_of_length_le hlen.symm.le
  · intro h
    exact ⟨h.length_eq, fun p hp => (hfind p).mpr (h.mem_iff.mp hp)⟩

theorem equals_iff : equals (stored ta a) (stored tb b) = true ↔
    SameColumns a b ∧ ta.attributes.Perm tb.attributes := by
  have htyped : Function.Injective fun p : String × String => (p.1, some p.2) := fun p q h =>
    Prod.ext (Prod.ext_iff.mp h).1 (Option.some.inj (Prod.ext_iff.mp h).2)
  have hkeys : sameEntries ta.parse tb.parse = true ↔ ta.attributes.Perm tb.attributes := by
    refine (sameEntries_iff (nodup_fromEntries _) (nodup_fromEntries _)).trans ?_
    change ta.parse.Perm tb.parse ↔ _
    rw [parse_eq, parse_eq, ownOrder_perm.congr_left, ownOrder_perm.congr_right, List.map_perm_map_iff htyped]
  rw [← hkeys, equals, Bool.and_eq_true, Bool.and_eq_true, Bool.and_eq_true, Bool.and_eq_true, Bool.and_eq_true,
    beq_iff_eq, beq_iff_eq, beq_iff_eq, beq_iff_eq, beq_iff_eq]
  constructor
  · rintro ⟨⟨⟨⟨⟨hname, hclass⟩, hthroughput⟩, hid⟩, hsame⟩, hcreated⟩
    exact ⟨⟨hname, hclass, hthroughput, hid, hcreated⟩, hsame⟩
  · rintro ⟨⟨hname, hclass, hthroughput, hid, hcreated⟩, hsame⟩
    exact ⟨⟨⟨⟨⟨hname, hclass⟩, hthroughput⟩, hid⟩, hsame⟩, hcreated⟩

-- the two tables agree exactly where the attributes agree in their roles
def ComparesKeys (ta tb : KeyText) (a b : DynamoTable) : Prop :=
  equals (stored ta a) (stored tb b) = true ↔ SameColumns a b ∧ ta.attributes = tb.attributes

def Swapped (ta tb : KeyText) : Prop := ta.attributes.length = 2 ∧ tb.attributes = ta.attributes.reverse

theorem perm_iff : ta.attributes.Perm tb.attributes ↔ ta.attributes = tb.attributes ∨ Swapped ta tb := by
  rw [Swapped]
  rcases size_cases ta with ⟨p, hp⟩ | ⟨p, q, hpq, -⟩
  · rw [hp, List.singleton_perm]
    simp [eq_comm]
  · rw [hpq]
    refine ⟨fun h => ?_, ?_⟩
    · obtain ⟨x, y, hxy⟩ := List.length_eq_two.mp h.length_eq.symm
      rw [hxy] at h ⊢
      rcases List.mem_pair.mp (h.mem_iff.mp List.mem_cons_self) with rfl | rfl
      · exact .inl (congrArg _ (List.singleton_perm_singleton.mp h.cons_inv ▸ rfl))
      · have hswap := h.trans (.swap p x [])
        have hqx : q = x := List.singleton_perm_singleton.mp hswap.cons_inv
        exact .inr ⟨rfl, by rw [hqx]; rfl⟩
    · rintro (h | ⟨-, h⟩)
      · rw [h]
      · rw [h]
        exact (List.reverse_perm _).symm

theorem Swapped.ne (h : Swapped ta tb) : ta.attributes ≠ tb.attributes := by
  obtain ⟨hlen, hreverse⟩ := h
  obtain ⟨p, q, hpq⟩ := List.length_eq_two.mp hlen
  have hdistinct := ta.distinct
  rw [hreverse, hpq]
  rw [hpq] at hdistinct
  intro heq
  have hpq : p = q := (List.cons.inj heq).1
  rw [hpq] at hdistinct
  exact (List.nodup_cons.mp hdistinct).1 (List.mem_singleton_self _)

-- the round trip of a key, and the comparison of two
theorem keys_survive_iff (ta tb : KeyText) (a b : DynamoTable) :
    (KeepsKey ta a ↔ InOrder ta ∧ Named ta) ∧
      (ComparesKeys ta tb a b ↔ ¬ (SameColumns a b ∧ Swapped ta tb)) := by
  refine ⟨keepsKey_iff ta a, ?_⟩
  rw [ComparesKeys, equals_iff, perm_iff]
  constructor
  · rintro h ⟨hcolumns, hswapped⟩
    exact hswapped.ne (h.mp ⟨hcolumns, .inr hswapped⟩).2
  · intro h
    refine ⟨fun ⟨hcolumns, hkeys⟩ => ⟨hcolumns, hkeys.resolve_right fun hswapped => h ⟨hcolumns, hswapped⟩⟩, ?_⟩
    exact fun ⟨hcolumns, hkeys⟩ => ⟨hcolumns, .inl hkeys⟩

def nameThenYear : KeyText := ⟨[("name", "S"), ("1984", "N")], by decide, .inr rfl⟩

def pkSk : KeyText := ⟨[("pk", "S"), ("sk", "N")], by decide, .inr rfl⟩

def skPk : KeyText := ⟨[("sk", "N"), ("pk", "S")], by decide, .inr rfl⟩

def events : DynamoTable := { tableName := "events", region := "us-east-1" }

-- a key of digits takes the first role, and swapped roles are no difference
theorem keys_lost :
    (createInput (stored nameThenYear events)).keySchema = [("1984", .hash), ("name", .range)] ∧
      ¬ KeepsKey nameThenYear events ∧
      equals (stored pkSk events) (stored skPk events) = true ∧ ¬ ComparesKeys pkSk skPk events events := by
  have hschema : (createInput (stored nameThenYear events)).keySchema = [("1984", .hash), ("name", .range)] := by
    decide +kernel
  have hequals : equals (stored pkSk events) (stored skPk events) = true := by
    decide +kernel
  refine ⟨hschema, fun h => ?_, hequals, fun h => ?_⟩
  · have hroles := h.roles
    rw [hschema] at hroles
    exact absurd hroles (by decide)
  · exact absurd (h.mp hequals).2 (by decide)

end Comparison

end Iasql.Dynamo
