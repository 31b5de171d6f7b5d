import Iasql.Calculus.OrderedMap

namespace Iasql

open OrderedMap

variable {E : Type}

structure EntityDiff (E : Type) where
  entitiesInDbOnly : List E
  entitiesInAwsOnly : List E
  entitiesChanged : List (E × E)
deriving DecidableEq

def mapSegmentation (a b : List (String × E)) :
    List (String × E) × List (String × E × E) × List (String × E) :=
  (a.filter fun x => (find x.1 b).isNone,
   a.filterMap fun x => (find x.1 b).map fun y => (x.1, x.2, y),
   b.filter fun y => (find y.1 a).isNone)

def findDiff (dbEntities cloudEntities : List E) (idGen : E → String)
    (comparator : E → E → Bool) : EntityDiff E :=
  let dbEntitiesById := ofList (dbEntities.map fun e => (idGen e, e))
  let cloudEntitiesById := ofList (cloudEntities.map fun e => (idGen e, e))
  let (dbOnly, remaining, cloudOnly) := mapSegmentation dbEntitiesById cloudEntitiesById
  { entitiesInDbOnly := dbOnly.map Prod.snd
    entitiesInAwsOnly := cloudOnly.map Prod.snd
    entitiesChanged := (remaining.map Prod.snd).filter fun p => !comparator p.1 p.2 }

section Members

variable {db cloud : List E} {idGen : E → String} {comparator : E → E → Bool} {e d c : E}

theorem mem_entitiesInDbOnly :
    e ∈ (findDiff db cloud idGen comparator).entitiesInDbOnly ↔
      ∃ i, lastWith idGen db i = some e ∧ lastWith idGen cloud i = none := by
  simp only [findDiff, mapSegmentation, List.mem_map, List.mem_filter, Option.isNone_iff_eq_none,
    find_ofList]
  constructor
  · rintro ⟨⟨i, d⟩, ⟨hm, hn⟩, rfl⟩
    exact ⟨i, (mem_ofList idGen db).mp hm, hn⟩
  · rintro ⟨i, hd, hn⟩
    exact ⟨(i, e), ⟨(mem_ofList idGen db).mpr hd, hn⟩, rfl⟩

theorem mem_entitiesInAwsOnly :
    e ∈ (findDiff db cloud idGen comparator).entitiesInAwsOnly ↔
      ∃ i, lastWith idGen cloud i = some e ∧ lastWith idGen db i = none := by
  simp only [findDiff, mapSegmentation, List.mem_map, List.mem_filter, Option.isNone_iff_eq_none,
    find_ofList]
  constructor
  · rintro ⟨⟨i, d⟩, ⟨hm, hn⟩, rfl⟩
    exact ⟨i, (mem_ofList idGen cloud).mp hm, hn⟩
  · rintro ⟨i, hd, hn⟩
    exact ⟨(i, e), ⟨(mem_ofList idGen cloud).mpr hd, hn⟩, rfl⟩

theorem mem_entitiesChanged :
    (d, c) ∈ (findDiff db cloud idGen comparator).entitiesChanged ↔
      ∃ i, lastWith idGen db i = some d ∧ lastWith idGen cloud i = some c ∧
        comparator d c = false := by
  simp only [findDiff, mapSegmentation, List.mem_filter, List.mem_map, List.mem_filterMap,
    Option.map_eq_some_iff, find_ofList, Bool.not_eq_true']
  constructor
  · rintro ⟨⟨⟨i, p⟩, ⟨⟨j, d'⟩, hm, c', hc, heq⟩, rfl⟩, hcmp⟩
    cases heq
    exact ⟨j, (mem_ofList idGen db).mp hm, hc, hcmp⟩
  · rintro ⟨i, hd, hc, hcmp⟩
    exact ⟨⟨(i, d, c), ⟨(i, d), (mem_ofList idGen db).mpr hd, c, hc, rfl⟩, rfl⟩, hcmp⟩

end Members

section Partition

def HasId (idGen : E → String) (es : List E) (i : String) : Prop := ∃ e ∈ es, idGen e = i

def EntityDiff.ids (idGen : E → String) (diff : EntityDiff E) : List String :=
  diff.entitiesInDbOnly.map idGen ++ (diff.entitiesInAwsOnly.map idGen ++
    diff.entitiesChanged.map fun p => idGen p.1)

variable {db cloud : List E} {idGen : E → String} {comparator : E → E → Bool}

theorem lastWith_isNone {es : List E} {i : String} :
    lastWith idGen es i = none ↔ ¬ HasId idGen es i := by
  rw [lastWith_eq_none, HasId]
  simp

theorem hasId_of_lastWith {es : List E} {i : String} {e : E} (h : lastWith idGen es i = some e) :
    HasId idGen es i := ⟨e, (lastWith_key h).2, (lastWith_key h).1⟩

theorem nodup_ids_of_sublist {es : List E} {picked : List (String × E)}
    (h : picked.Sublist (ofList (es.map fun e => (idGen e, e)))) :
    (picked.map fun p => idGen p.2).Nodup := by
  have hkeys : (picked.map fun p => idGen p.2) = keys picked := by
    refine List.map_congr_left fun p hp => ?_
    exact (lastWith_key ((mem_ofList idGen es).mp (h.subset hp))).1
  rw [hkeys]
  exact (nodup_keys_ofList _).sublist (h.map Prod.fst)

theorem nodup_ids_dbOnly : ((findDiff db cloud idGen comparator).entitiesInDbOnly.map idGen).Nodup := by
  simp only [findDiff, mapSegmentation, List.map_map]
  exact nodup_ids_of_sublist List.filter_sublist

theorem nodup_ids_awsOnly :
    ((findDiff db cloud idGen comparator).entitiesInAwsOnly.map idGen).Nodup := by
  simp only [findDiff, mapSegmentation, List.map_map]
  exact nodup_ids_of_sublist List.filter_sublist

theorem map_fst_remaining (f : String × E → Option E) (m : List (String × E)) :
    ((m.filterMap fun x => (f x).map fun y => (x.1, x.2, y)).map fun p => p.2.1) =
      (m.filter fun x => (f x).isSome).map Prod.snd := by
  induction m with
  | nil => rfl
  | cons x m ih =>
    cases hx : f x with
    | none => simp [hx, ih]
    | some y => simp [hx, ih]

theorem nodup_ids_changed :
    ((findDiff db cloud idGen comparator).entitiesChanged.map fun p => idGen p.1).Nodup := by
  simp only [findDiff, mapSegmentation]
  refine List.Nodup.sublist (List.Sublist.map _ List.filter_sublist) ?_
  have hfst := congrArg (List.map idGen) (map_fst_remaining
    (fun x => find x.1 (ofList (cloud.map fun e => (idGen e, e))))
    (ofList (db.map fun e => (idGen e, e))))
  simp only [List.map_map] at hfst ⊢
  refine (congrArg List.Nodup hfst).mpr ?_
  exact nodup_ids_of_sublist List.filter_sublist

theorem nodup_ids : ((findDiff db cloud idGen comparator).ids idGen).Nodup := by
  refine List.nodup_append.mpr ⟨nodup_ids_dbOnly, List.nodup_append.mpr
    ⟨nodup_ids_awsOnly, nodup_ids_changed, ?_⟩, ?_⟩
  · rintro i haws _ hchanged rfl
    obtain ⟨e, he, rfl⟩ := List.mem_map.mp haws
    obtain ⟨i, hi, hdb⟩ := mem_entitiesInAwsOnly.mp he
    obtain ⟨⟨d, c⟩, hp, heq⟩ := List.mem_map.mp hchanged
    obtain ⟨j, hj, -⟩ := mem_entitiesChanged.mp hp
    have hij : i = j := by rw [← (lastWith_key hi).1, ← (lastWith_key hj).1, heq]
    rw [← hij, hdb] at hj
    cases hj
  · rintro i honly _ hrest rfl
    obtain ⟨e, he, rfl⟩ := List.mem_map.mp honly
    obtain ⟨i, hi, hcloud⟩ := mem_entitiesInDbOnly.mp he
    have hid := (lastWith_key hi).1
    rcases List.mem_append.mp hrest with h | h
    · obtain ⟨e', he', heq⟩ := List.mem_map.mp h
      obtain ⟨j, hj, -⟩ := mem_entitiesInAwsOnly.mp he'
      have hij : i = j := by rw [← hid, ← (lastWith_key hj).1, heq]
      rw [← hij, hcloud] at hj
      cases hj
    · obtain ⟨⟨d, c⟩, hp, heq⟩ := List.mem_map.mp h
      obtain ⟨j, hj, hc, -⟩ := mem_entitiesChanged.mp hp
      have hij : i = j := by rw [← hid, ← (lastWith_key hj).1, heq]
      rw [← hij, hcloud] at hc
      cases hc

theorem findDiff_partitions (db cloud : List E) (idGen : E → String) (comparator : E → E → Bool) :
    (∀ e, e ∈ (findDiff db cloud idGen comparator).entitiesInDbOnly ↔
        ∃ i, HasId idGen db i ∧ ¬ HasId idGen cloud i ∧ lastWith idGen db i = some e) ∧
      (∀ e, e ∈ (findDiff db cloud idGen comparator).entitiesInAwsOnly ↔
        ∃ i, HasId idGen cloud i ∧ ¬ HasId idGen db i ∧ lastWith idGen cloud i = some e) ∧
      (∀ d c, (d, c) ∈ (findDiff db cloud idGen comparator).entitiesChanged ↔
        ∃ i, HasId idGen db i ∧ HasId idGen cloud i ∧ lastWith idGen db i = some d ∧
          lastWith idGen cloud i = some c ∧ comparator d c = false) ∧
      ((findDiff db cloud idGen comparator).ids idGen).Nodup ∧
      (findDiff cloud db idGen fun c d => comparator d c).entitiesInDbOnly =
        (findDiff db cloud idGen comparator).entitiesInAwsOnly ∧
      (findDiff cloud db idGen fun c d => comparator d c).entitiesInAwsOnly =
        (findDiff db cloud idGen comparator).entitiesInDbOnly := by
  refine ⟨fun e => ?_, fun e => ?_, fun d c => ?_, nodup_ids, rfl, rfl⟩
  · rw [mem_entitiesInDbOnly]
    refine exists_congr fun i => ?_
    rw [lastWith_isNone]
    exact ⟨fun h => ⟨hasId_of_lastWith h.1, h.2, h.1⟩, fun h => ⟨h.2.2, h.2.1⟩⟩
  · rw [mem_entitiesInAwsOnly]
    refine exists_congr fun i => ?_
    rw [lastWith_isNone]
    exact ⟨fun h => ⟨hasId_of_lastWith h.1, h.2, h.1⟩, fun h => ⟨h.2.2, h.2.1⟩⟩
  · rw [mem_entitiesChanged]
    refine exists_congr fun i => ?_
    exact ⟨fun h => ⟨hasId_of_lastWith h.1, hasId_of_lastWith h.2.1, h⟩, fun h => h.2.2⟩

end Partition

end Iasql
