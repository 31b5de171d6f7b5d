import Iasql.Calculus.OneSided
import Iasql.Instances
import Mathlib.Data.Fintype.EquivFin

namespace Iasql.GeneratedKeys

open OneSided
open Instances (Subnet)
open SecurityGroups (SecurityGroup Vpc)

section Readings

-- whether the generated primary keys count among the columns of a record
inductive Reading where
  | withKeys | withoutKeys
deriving DecidableEq

def Reading.key : Reading → Option Nat → Option Nat
  | withKeys, id => id
  | withoutKeys, _ => none

variable (reading : Reading)

def vpcColumns (vpc : Vpc) : Vpc := { vpc with id := reading.key vpc.id }

def groupColumns (group : SecurityGroup) : SecurityGroup :=
  { group with id := reading.key group.id, vpc := group.vpc.map (vpcColumns reading) }

def subnetColumns (subnet : Subnet) : Subnet := { subnet with id := reading.key subnet.id }

@[simp] theorem key_key (id : Option Nat) : reading.key (reading.key id) = reading.key id := by
  cases reading <;> rfl

theorem subnetColumns_idem (subnet : Subnet) :
    subnetColumns reading (subnetColumns reading subnet) = subnetColumns reading subnet := by
  simp [subnetColumns]

theorem groupColumns_idem (group : SecurityGroup) :
    groupColumns reading (groupColumns reading group) = groupColumns reading group := by
  cases h : group.vpc <;> simp [groupColumns, vpcColumns, h]

end Readings

section Tables

variable {R ν : Type} {keyOf : R → Option Nat}

-- the rows of a table, each under the key that was generated for it
structure Table (R : Type) (keyOf : R → Option Nat) where
  row : Nat → R
  keyOf_row : ∀ i, keyOf (row i) = some i

-- a record with a key is the row of that key; a record that is only mapped from AWS has none
def Table.Holds (table : Table R keyOf) (record : R) : Prop := ∀ i, keyOf record = some i → record = table.row i

abbrev Table.Record (table : Table R keyOf) : Type := { record : R // table.Holds record }

variable {table : Table R keyOf} {reading : Reading} {columns : Reading → R → R} {value : R → ν}

theorem holds_row (i : Nat) : table.Holds (table.row i) := by
  intro j hj
  obtain rfl := Option.some.inj ((table.keyOf_row i).symm.trans hj)
  rfl

theorem holds_of_none {record : R} (h : keyOf record = none) : table.Holds record := by
  intro i hi
  rw [h] at hi
  cases hi

def byKey (table : Table R keyOf) (reading : Reading) (columns : Reading → R → R) (value : R → ν) :
    Elements table.Record (Option Nat) R ν where
  key record := keyOf record.1
  columns record := columns reading record.1
  value record := value record.1
  skipped _ := False
  findable _ := True

-- a record tells what it is where it has a key, and its copies have the key where keys count
theorem told_byKey (hid : ∀ record, keyOf (columns reading record) = reading.key (keyOf record))
    (hidem : ∀ record, columns reading (columns reading record) = columns reading record)
    (htwo : ∃ y z, keyOf y = none ∧ keyOf z = none ∧ value y ≠ value z) (x : table.Record) :
    (byKey table reading columns value).Told x ↔ (keyOf x.1).isSome = true ∧ reading = .withKeys := by
  constructor
  · intro h
    have hkey : (keyOf x.1).isSome = true := by
      by_contra hno
      have hnone := Option.not_isSome_iff_eq_none.mp hno
      obtain ⟨y, z, hy, hz, hne⟩ := htwo
      refine hne ((h.value ⟨y, holds_of_none hy⟩ ?_).symm.trans (h.value ⟨z, holds_of_none hz⟩ ?_))
      · exact hnone.trans hy.symm
      · exact hnone.trans hz.symm
    refine ⟨hkey, ?_⟩
    cases reading with
    | withKeys => rfl
    | withoutKeys =>
      have hnone : keyOf (columns .withoutKeys x.1) = none := hid x.1
      have hsame : keyOf x.1 = keyOf (columns .withoutKeys x.1) :=
        h.columns ⟨_, holds_of_none hnone⟩ (hidem x.1).symm
      rw [hsame, hnone] at hkey
      cases hkey
  · rintro ⟨hkey, rfl⟩
    obtain ⟨i, hi⟩ := Option.isSome_iff_exists.mp hkey
    refine ⟨not_false, trivial, fun y hy => ?_, fun y hy => ?_⟩
    · have hrow : x.1 = y.1 := (x.2 i hi).trans (y.2 i (hy.symm.trans hi)).symm
      exact congrArg value hrow
    · have hids := congrArg keyOf hy
      simpa only [byKey, hid, Reading.key] using hids

theorem fresh_byKey (ks : List (Option Nat)) : ∃ y, (byKey table reading columns value).key y ∉ ks ∧
    ¬ (byKey table reading columns value).skipped ((byKey table reading columns value).key y) := by
  obtain ⟨k, hk⟩ := Infinite.exists_notMem_finset (none :: ks).toFinset
  rw [List.mem_toFinset, List.mem_cons, not_or] at hk
  obtain ⟨i, rfl⟩ := Option.ne_none_iff_exists'.mp hk.1
  refine ⟨⟨table.row i, holds_row i⟩, fun hmem => hk.2 ?_, not_false⟩
  rw [← table.keyOf_row i]
  exact hmem

theorem lawful_byKey (hid : ∀ record, keyOf (columns reading record) = reading.key (keyOf record))
    (hidem : ∀ record, columns reading (columns reading record) = columns reading record)
    (htwo : ∃ y z, keyOf y = none ∧ keyOf z = none ∧ value y ≠ value z) (a : Option (List table.Record)) :
    Lawful (byKey table reading columns value).Matches (byKey table reading columns value).Copies
        (SameBy fun record => value record.1) a ↔
      DistinctBy (fun record => keyOf record.1)
        (fun record => (keyOf record.1).isSome = true ∧ reading = .withKeys) a :=
  (lawful_iff fresh_byKey).trans (distinctBy_congr (told_byKey hid hidem htwo))

end Tables

section Texts

-- names, where one that is empty is passed over
def zones : Elements String String String String where
  key zone := zone
  columns zone := zone
  value zone := zone
  skipped zone := zone = ""
  findable _ := True

-- names, where one that is empty counts as not found
def subnetIds : Elements String String String String where
  key subnet := subnet
  columns subnet := subnet
  value subnet := subnet
  skipped _ := False
  findable subnet := subnet ≠ ""

theorem lawful_zones (a : Option (List String)) :
    Lawful zones.Matches zones.Copies (SameBy fun zone => zone) a ↔
      DistinctBy (fun zone => zone) (· ≠ "") a := by
  refine (lawful_iff fun ks => ?_).trans (distinctBy_congr fun zone => ?_)
  · obtain ⟨zone, hzone⟩ := Infinite.exists_notMem_finset ("" :: ks).toFinset
    rw [List.mem_toFinset, List.mem_cons, not_or] at hzone
    exact ⟨zone, hzone.2, hzone.1⟩
  · exact ⟨fun h => h.kept, fun h => ⟨h, trivial, fun _ => id, fun _ => id⟩⟩

theorem lawful_subnetIds (a : Option (List String)) :
    Lawful subnetIds.Matches subnetIds.Copies (SameBy fun subnet => subnet) a ↔
      DistinctBy (fun subnet => subnet) (· ≠ "") a := by
  refine (lawful_iff fun ks => ?_).trans (distinctBy_congr fun subnet => ?_)
  · obtain ⟨subnet, hsubnet⟩ := Infinite.exists_notMem_finset ks.toFinset
    exact ⟨subnet, fun h => hsubnet (List.mem_toFinset.mpr h), not_false⟩
  · exact ⟨fun h => h.findable, fun h => ⟨not_false, h, fun _ => id, fun _ => id⟩⟩

-- the name that is found counts where it is not empty
theorem found_iff {name : String} {names : List String} :
    (names.find? fun other => name == other).any (· != "") = true ↔ name ≠ "" ∧ name ∈ names := by
  rw [Option.any_eq_true]
  constructor
  · rintro ⟨other, hfound, hne⟩
    obtain rfl := beq_iff_eq.mp (List.find?_some hfound)
    exact ⟨bne_iff_ne.mp hne, List.mem_of_find?_eq_some hfound⟩
  · rintro ⟨hne, hmem⟩
    obtain ⟨other, hfound⟩ := Option.isSome_iff_exists.mp
      (List.find?_isSome.mpr ⟨name, hmem, beq_self_eq_true name⟩)
    obtain rfl := beq_iff_eq.mp (List.find?_some hfound)
    exact ⟨name, hfound, bne_iff_ne.mpr hne⟩

theorem listed_zones {a b : Option (List String)} :
    (a.map List.length == b.map List.length && (a.map fun as => (as.filter (· != "")).all fun aaz =>
      (((b.getD []).filter (· != "")).find? fun baz => aaz == baz).any (· != "")).getD false) = true ↔
        zones.Matches a b := by
  simp only [List.all_filter]
  refine listed_iff (f := fun aaz bs => !(aaz != "") ||
    ((bs.filter (· != "")).find? fun baz => aaz == baz).any (· != "")) fun zone bs => ?_
  rw [Bool.or_eq_true, found_iff, List.mem_filter, bne_iff_ne]
  simp only [zones, List.map_id', Bool.not_eq_true', bne_eq_false_iff_eq, true_and]
  tauto

theorem listed_subnetIds {a b : Option (List String)} :
    listed (fun asn bs => (bs.find? fun bsn => asn == bsn).any (· != "")) a b = true ↔
      subnetIds.Matches a b := by
  refine listed_iff fun subnet bs => found_iff.trans ?_
  simp only [subnetIds, List.map_id', false_or]

-- security groups are told by their group ids
def groups (reading : Reading) : Elements SecurityGroup (Option String) SecurityGroup (Option String) where
  key group := group.groupId
  columns group := groupColumns reading group
  value group := group.groupId
  skipped _ := False
  findable _ := True

theorem lawful_groups {reading : Reading} (a : Option (List SecurityGroup)) :
    Lawful (groups reading).Matches (groups reading).Copies (SameBy (·.groupId)) a ↔
      DistinctBy (·.groupId) (fun _ => True) a := by
  refine (lawful_iff fun ks => ?_).trans (distinctBy_congr fun group => ?_)
  · obtain ⟨groupId, hgroup⟩ := Infinite.exists_notMem_finset ks.toFinset
    exact ⟨{ groupId := groupId }, fun h => hgroup (List.mem_toFinset.mpr h), not_false⟩
  · have hcolumns : ∀ other, groupColumns reading group = groupColumns reading other →
        group.groupId = other.groupId := by
      intro other h
      have hids := congrArg SecurityGroup.groupId h
      exact hids
    exact iff_of_true ⟨not_false, trivial, fun _ h => h, hcolumns⟩ trivial

theorem listed_groups {reading : Reading} {a b : Option (List SecurityGroup)} :
    listed (fun asg bs => (bs.find? fun bsg => asg.groupId == bsg.groupId).isSome) a b = true ↔
      (groups reading).Matches a b := by
  refine listed_iff fun group bs => ?_
  simp only [groups, List.find?_isSome, beq_iff_eq, false_or, true_and, List.mem_map]
  simp only [eq_comm (a := group.groupId)]

end Texts

end Iasql.GeneratedKeys
