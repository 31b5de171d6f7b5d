import Iasql.Calculus.OrderedMap
import Mathlib.Data.List.Perm.Subperm

open OrderedMap

namespace OrderedMap

variable {κ ν : Type} [DecidableEq κ]

theorem put_of_absent {k : κ} {v : ν} {m : List (κ × ν)} (h : find k m = none) :
    put k v m = m ++ [(k, v)] := by
  induction m with
  | nil => rfl
  | cons p m ih =>
    obtain ⟨l, w⟩ := p
    rw [find] at h
    split at h
    · cases h
    · next hl => rw [put, if_neg hl, ih h, List.cons_append]

theorem ofList_of_nodup {m : List (κ × ν)} (h : (keys m).Nodup) : ofList m = m := by
  induction m using List.reverseRecOn with
  | nil => rfl
  | append_singleton m p ih =>
    obtain ⟨k, v⟩ := p
    have hsplit := List.nodup_append.mp (by simpa [keys] using h : (keys m ++ [k]).Nodup)
    have habsent : find k m = none := find_eq_none.mpr fun hk => hsplit.2.2 k hk k (by simp) rfl
    rw [ofList_concat, ih hsplit.1, put_of_absent habsent]

end OrderedMap

-- an object read and written by key: its keys are distinct and keep the order they were set in
structure Dict (κ ν : Type) [DecidableEq κ] where
  entries : List (κ × ν)
  nodup : (keys entries).Nodup

namespace Dict

variable {κ ν : Type} [DecidableEq κ]

@[ext] theorem ext {d e : Dict κ ν} (h : d.entries = e.entries) : d = e := by
  cases d
  cases e
  cases h
  rfl

instance [DecidableEq ν] : DecidableEq (Dict κ ν) := fun d e =>
  decidable_of_iff (d.entries = e.entries) ⟨ext, fun h => h ▸ rfl⟩

instance : EmptyCollection (Dict κ ν) := ⟨⟨[], List.nodup_nil⟩⟩

def keys (d : Dict κ ν) : List κ := OrderedMap.keys d.entries

def get? (d : Dict κ ν) (k : κ) : Option ν := find k d.entries

def set (d : Dict κ ν) (k : κ) (v : ν) : Dict κ ν := ⟨put k v d.entries, nodup_keys_put d.nodup⟩

def assign (d e : Dict κ ν) : Dict κ ν := e.entries.foldl (fun d p => d.set p.1 p.2) d

def eraseAll (d : Dict κ ν) (ks : List κ) : Dict κ ν :=
  ⟨d.entries.filter fun p => decide (p.1 ∉ ks), d.nodup.sublist (List.filter_sublist.map _)⟩

def filter (d : Dict κ ν) (p : κ → ν → Bool) : Dict κ ν :=
  ⟨d.entries.filter fun e => p e.1 e.2, d.nodup.sublist (List.filter_sublist.map _)⟩

variable {d e : Dict κ ν} {k l : κ} {v w : ν}

@[simp] theorem entries_empty : (∅ : Dict κ ν).entries = [] := rfl

theorem entries_eq_nil : d.entries = [] ↔ d = ∅ :=
  ⟨fun h => ext (h.trans entries_empty.symm), fun h => h ▸ rfl⟩

theorem mem_keys : k ∈ d.keys ↔ ∃ v, (k, v) ∈ d.entries := by
  simp [keys, OrderedMap.keys]

theorem get?_eq_some : d.get? k = some v ↔ (k, v) ∈ d.entries := find_eq_some d.nodup

theorem get?_eq_none : d.get? k = none ↔ k ∉ d.keys := find_eq_none

theorem mem_unique (h : (k, v) ∈ d.entries) (h' : (k, w) ∈ d.entries) : v = w :=
  Option.some.inj ((get?_eq_some.mpr h).symm.trans (get?_eq_some.mpr h'))

theorem get?_set_self : (d.set k v).get? k = some v := find_put_self k v d.entries

theorem get?_set_ne (h : l ≠ k) : (d.set k v).get? l = d.get? l := find_put_ne v d.entries h

theorem mem_set : (l, w) ∈ (d.set k v).entries ↔
    l = k ∧ w = v ∨ l ≠ k ∧ (l, w) ∈ d.entries := by
  rw [← get?_eq_some, ← get?_eq_some]
  by_cases h : l = k
  · subst h
    rw [get?_set_self]
    simp [eq_comm]
  · rw [get?_set_ne h]
    simp [h]

theorem entries_set_of_absent (h : d.get? k = none) :
    (d.set k v).entries = d.entries ++ [(k, v)] := put_of_absent h

theorem entries_eraseAll (d : Dict κ ν) (ks : List κ) :
    (d.eraseAll ks).entries = d.entries.filter fun p => decide (p.1 ∉ ks) := rfl

theorem mem_eraseAll {ks : List κ} :
    (k, v) ∈ (d.eraseAll ks).entries ↔ (k, v) ∈ d.entries ∧ k ∉ ks := by
  simp [eraseAll]

theorem set_ne_empty : d.set k v ≠ ∅ := by
  intro h
  have hmem : (k, v) ∈ (d.set k v).entries := mem_set.mpr (.inl ⟨rfl, rfl⟩)
  rw [h] at hmem
  cases hmem

theorem assign_ne_empty (h : e ≠ ∅) : d.assign e ≠ ∅ := by
  obtain ⟨init, p, hsplit⟩ := (List.eq_nil_or_concat e.entries).resolve_left
    fun hnil => h (entries_eq_nil.mp hnil)
  rw [assign, hsplit, List.concat_eq_append, List.foldl_append]
  exact set_ne_empty

theorem entries_foldl_set (ps : List (κ × ν)) (d : Dict κ ν) :
    (ps.foldl (fun d p => d.set p.1 p.2) d).entries =
      ps.foldl (fun m p => put p.1 p.2 m) d.entries := by
  induction ps generalizing d with
  | nil => rfl
  | cons p ps ih => exact ih (d.set p.1 p.2)

@[simp] theorem empty_assign : (∅ : Dict κ ν).assign d = d := by
  ext1
  rw [assign, entries_foldl_set]
  exact ofList_of_nodup d.nodup

theorem get?_assign_of_some (d : Dict κ ν) (h : e.get? k = some v) :
    (d.assign e).get? k = some v := by
  have hfold : ∀ (ps : List (κ × ν)) (m : Dict κ ν), (OrderedMap.keys ps).Nodup → (k, v) ∈ ps →
      (ps.foldl (fun d p => d.set p.1 p.2) m).get? k = some v := by
    intro ps
    induction ps using List.reverseRecOn with
    | nil => exact fun _ _ hmem => absurd hmem List.not_mem_nil
    | append_singleton ps p ih =>
      intro m hnodup hmem
      have hsplit := List.nodup_append.mp
        (by simpa [OrderedMap.keys] using hnodup : (OrderedMap.keys ps ++ [p.1]).Nodup)
      rw [List.foldl_append]
      rcases List.mem_append.mp hmem with hmem | hmem
      · have hne : k ≠ p.1 := hsplit.2.2 k (List.mem_map_of_mem hmem) p.1 (by simp)
        exact (get?_set_ne hne).trans (ih m hsplit.1 hmem)
      · obtain rfl := List.mem_singleton.mp hmem
        exact get?_set_self
  exact hfold e.entries d e.nodup (get?_eq_some.mp h)

theorem get?_assign_of_none (d : Dict κ ν) (h : e.get? k = none) : (d.assign e).get? k = d.get? k := by
  have hkeys : ∀ p ∈ e.entries, p.1 ≠ k := fun p hp hk =>
    get?_eq_none.mp h (mem_keys.mpr ⟨p.2, hk ▸ hp⟩)
  have hfold : ∀ (ps : List (κ × ν)) (m : Dict κ ν), (∀ p ∈ ps, p.1 ≠ k) →
      (ps.foldl (fun d p => d.set p.1 p.2) m).get? k = m.get? k := by
    intro ps
    induction ps with
    | nil => exact fun _ _ => rfl
    | cons p ps ih =>
      intro m hne
      obtain ⟨hp, hps⟩ := List.forall_mem_cons.mp hne
      exact (ih (m.set p.1 p.2) hps).trans (get?_set_ne hp.symm)
  exact hfold e.entries d hkeys

theorem get?_filter (d : Dict κ ν) (p : κ → ν → Bool) (k : κ) :
    (d.filter p).get? k = (d.get? k).filter (p k) := by
  ext v
  rw [get?_eq_some, Option.filter_eq_some_iff, get?_eq_some]
  exact List.mem_filter

theorem get?_eraseAll (d : Dict κ ν) (ks : List κ) (k : κ) :
    (d.eraseAll ks).get? k = if k ∈ ks then none else d.get? k := by
  split
  · next hk =>
    refine get?_eq_none.mpr fun hmem => ?_
    obtain ⟨v, hv⟩ := mem_keys.mp hmem
    exact (mem_eraseAll.mp hv).2 hk
  · next hk =>
    ext v
    rw [get?_eq_some, get?_eq_some, mem_eraseAll]
    exact and_iff_left hk

theorem eraseAll_eq_iff {ks : List κ} {extra : List (κ × ν)} (h : e.entries = d.entries ++ extra) :
    e.eraseAll ks = d ↔ (∀ k ∈ d.keys, k ∉ ks) ∧ ∀ k ∈ OrderedMap.keys extra, k ∈ ks := by
  have hdisjoint : ∀ k ∈ d.keys, k ∉ OrderedMap.keys extra := by
    have hnodup : (d.keys ++ OrderedMap.keys extra).Nodup := by
      have hn := e.nodup
      rw [h] at hn
      simpa [OrderedMap.keys, keys] using hn
    exact fun k hk hk' => (List.nodup_append.mp hnodup).2.2 k hk k hk' rfl
  constructor
  · intro heq
    have hentries : (e.eraseAll ks).entries = d.entries := congrArg entries heq
    constructor
    · intro k hk
      obtain ⟨v, hv⟩ := mem_keys.mp hk
      rw [← hentries] at hv
      exact (mem_eraseAll.mp hv).2
    · intro k hk
      by_contra hnot
      obtain ⟨p, hp, rfl⟩ := List.mem_map.mp hk
      have hmem : p ∈ (e.eraseAll ks).entries :=
        mem_eraseAll.mpr ⟨h ▸ List.mem_append_right _ hp, hnot⟩
      rw [hentries] at hmem
      exact hdisjoint p.1 (mem_keys.mpr ⟨p.2, hmem⟩) hk
  · rintro ⟨hkept, herased⟩
    ext1
    rw [entries_eraseAll, h, List.filter_append]
    have hleft : d.entries.filter (fun p => decide (p.1 ∉ ks)) = d.entries := by
      refine List.filter_eq_self.mpr fun p hp => ?_
      simpa using hkept p.1 (mem_keys.mpr ⟨p.2, hp⟩)
    have hright : extra.filter (fun p => decide (p.1 ∉ ks)) = [] := by
      refine List.filter_eq_nil_iff.mpr fun p hp => ?_
      simpa using herased p.1 (List.mem_map_of_mem hp)
    rw [hleft, hright, List.append_nil]

-- an object made by setting one key after the other
def ofList (ps : List (κ × ν)) : Dict κ ν := ⟨OrderedMap.ofList ps, nodup_keys_ofList ps⟩

theorem get?_ofList (ps : List (κ × ν)) (k : κ) :
    (ofList ps).get? k = (lastWith Prod.fst ps k).map Prod.snd := find_ofList_pairs ps k

theorem mem_of_mem_ofList {ps : List (κ × ν)} (h : (k, v) ∈ (ofList ps).entries) :
    (k, v) ∈ ps := by
  have hlast := get?_eq_some.mpr h
  rw [get?_ofList, Option.map_eq_some_iff] at hlast
  obtain ⟨⟨l, w⟩, hwith, rfl⟩ := hlast
  obtain ⟨rfl, hmem⟩ := lastWith_key hwith
  exact hmem

theorem entries_ofList {ps : List (κ × ν)} (h : (OrderedMap.keys ps).Nodup) :
    (ofList ps).entries = ps := ofList_of_nodup h

-- two objects with the same keys, whatever their order, and related values under each
def isEqualBy (r : ν → ν → Bool) (d e : Dict κ ν) : Bool :=
  d.entries.length == e.entries.length &&
    d.entries.all fun p => match e.get? p.1 with
      | some w => r p.2 w
      | none => false

theorem isEqualBy_iff {r : ν → ν → Bool} :
    isEqualBy r d e = true ↔ ∀ k, Option.Rel (fun v w => r v w = true) (d.get? k) (e.get? k) := by
  rw [isEqualBy, Bool.and_eq_true, beq_iff_eq, List.all_eq_true]
  have hlengths : ∀ d : Dict κ ν, d.keys.length = d.entries.length := fun d => List.length_map _
  constructor
  · rintro ⟨hlength, hall⟩ k
    have hsub : d.keys ⊆ e.keys := by
      intro k hk
      obtain ⟨v, hv⟩ := mem_keys.mp hk
      by_contra hnot
      have hat := hall _ hv
      rw [get?_eq_none.mpr hnot] at hat
      cases hat
    have hle : e.keys.length ≤ d.keys.length := by
      rw [hlengths, hlengths]
      exact Nat.le_of_eq hlength.symm
    have hperm : d.keys.Perm e.keys := (List.Nodup.subperm d.nodup hsub).perm_of_length_le hle
    cases hk : d.get? k with
    | none =>
      have habsent := get?_eq_none.mp hk
      rw [get?_eq_none.mpr fun hmem => habsent (hperm.mem_iff.mpr hmem)]
      exact .none
    | some v =>
      have hat := hall _ (get?_eq_some.mp hk)
      dsimp only at hat
      split at hat
      · next w hw =>
        rw [hw]
        exact .some hat
      · cases hat
  · intro h
    have hkeys : ∀ k, k ∈ d.keys ↔ k ∈ e.keys := by
      intro k
      rw [← not_iff_not, ← get?_eq_none, ← get?_eq_none]
      have hk := h k
      generalize d.get? k = v at hk
      generalize e.get? k = w at hk
      cases hk <;> simp
    refine ⟨?_, fun p hp => ?_⟩
    · rw [← hlengths, ← hlengths]
      exact ((List.perm_ext_iff_of_nodup d.nodup e.nodup).mpr hkeys).length_eq
    · have hp' := h p.1
      rw [get?_eq_some.mpr hp] at hp'
      generalize e.get? p.1 = w at hp' ⊢
      cases hp' with
      | some hr => exact hr

theorem isEqualBy_self {r : ν → ν → Bool} (h : ∀ v, r v v = true) (d : Dict κ ν) :
    isEqualBy r d d = true := by
  rw [isEqualBy_iff]
  intro k
  cases d.get? k with
  | none => exact .none
  | some v => exact .some (h v)

theorem isEqualBy_set {r : ν → ν → Bool} (h : isEqualBy r d e = true) (hr : r v w = true) :
    isEqualBy r (d.set k v) (e.set k w) = true := by
  rw [isEqualBy_iff] at h ⊢
  intro l
  by_cases hl : l = k
  · subst hl
    rw [get?_set_self, get?_set_self]
    exact .some hr
  · rw [get?_set_ne hl, get?_set_ne hl]
    exact h l

end Dict
