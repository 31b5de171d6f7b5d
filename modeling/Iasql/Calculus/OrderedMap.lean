import Mathlib.Data.List.Induction
import Mathlib.Tactic.Common

namespace OrderedMap

variable {κ ν : Type} [DecidableEq κ]

-- a key that is set again keeps its place and takes the new value
def put (k : κ) (v : ν) : List (κ × ν) → List (κ × ν)
  | [] => [(k, v)]
  | (l, w) :: m => if l = k then (k, v) :: m else (l, w) :: put k v m

def find (k : κ) : List (κ × ν) → Option ν
  | [] => none
  | (l, w) :: m => if l = k then some w else find k m

def ofList (xs : List (κ × ν)) : List (κ × ν) := xs.foldl (fun m p => put p.1 p.2 m) []

def keys (m : List (κ × ν)) : List κ := m.map Prod.fst

def lastWith (f : ν → κ) (xs : List ν) (k : κ) : Option ν :=
  (xs.filter fun v => decide (f v = k)).getLast?

@[simp] theorem find_put_self (k : κ) (v : ν) (m : List (κ × ν)) : find k (put k v m) = some v := by
  induction m with
  | nil => simp [put, find]
  | cons p m ih =>
    obtain ⟨l, w⟩ := p
    by_cases h : l = k <;> simp [put, find, h, ih]

theorem find_put_ne {k l : κ} (v : ν) (m : List (κ × ν)) (h : l ≠ k) :
    find l (put k v m) = find l m := by
  induction m with
  | nil => simp [put, find, h.symm]
  | cons p m ih =>
    obtain ⟨j, w⟩ := p
    by_cases hj : j = k
    · subst hj
      simp [put, find, h.symm]
    · by_cases hl : j = l
      · subst hl
        simp [put, find, hj]
      · simp [put, find, hj, hl, ih]

theorem keys_put (k : κ) (v : ν) (m : List (κ × ν)) :
    keys (put k v m) = if k ∈ keys m then keys m else keys m ++ [k] := by
  induction m with
  | nil => simp [put, keys]
  | cons p m ih =>
    obtain ⟨l, w⟩ := p
    by_cases h : l = k
    · subst h
      simp [put, keys]
    · have hk : ¬ k = l := fun e => h e.symm
      simp only [keys] at ih
      by_cases hm : k ∈ m.map Prod.fst <;> simp [put, keys, h, hk, hm, ih]

theorem nodup_keys_put {k : κ} {v : ν} {m : List (κ × ν)} (h : (keys m).Nodup) :
    (keys (put k v m)).Nodup := by
  rw [keys_put]
  split
  · exact h
  · next hk => exact List.nodup_append.mpr ⟨h, by simp, by rintro a ha b hb rfl; simp_all⟩

theorem find_eq_some {m : List (κ × ν)} (h : (keys m).Nodup) {k : κ} {v : ν} :
    find k m = some v ↔ (k, v) ∈ m := by
  induction m with
  | nil => simp [find]
  | cons p m ih =>
    obtain ⟨l, w⟩ := p
    have hn := List.nodup_cons.mp h
    by_cases hl : l = k
    · subst hl
      have hnot : (l, v) ∉ m := fun hm => hn.1 (List.mem_map.mpr ⟨_, hm, rfl⟩)
      simp [find, hnot, eq_comm]
    · have hk : ¬ k = l := fun e => hl e.symm
      simp [find, hl, hk, ih hn.2]

theorem find_eq_none {m : List (κ × ν)} {k : κ} : find k m = none ↔ k ∉ keys m := by
  induction m with
  | nil => simp [find, keys]
  | cons p m ih =>
    obtain ⟨l, w⟩ := p
    by_cases hl : l = k
    · simp [find, keys, hl]
    · have hk : ¬ k = l := fun e => hl e.symm
      simp only [keys] at ih
      simp [find, keys, hl, hk, ih]

theorem mem_of_find {m : List (κ × ν)} {k : κ} {v : ν} (h : find k m = some v) : (k, v) ∈ m := by
  induction m with
  | nil => cases h
  | cons p m ih =>
    obtain ⟨l, w⟩ := p
    rw [find] at h
    split at h
    · next hl =>
      obtain rfl := Option.some.inj h
      simp [hl]
    · exact List.mem_cons_of_mem _ (ih h)

theorem put_eq_map {m : List (κ × ν)} {k : κ} {v : ν} (h : (keys m).Nodup) (hk : k ∈ keys m) :
    put k v m = m.map fun q => if q.1 = k then (k, v) else q := by
  induction m with
  | nil => exact absurd hk List.not_mem_nil
  | cons p m ih =>
    obtain ⟨l, w⟩ := p
    obtain ⟨hl, hm⟩ := List.nodup_cons.mp h
    rw [put, List.map_cons]
    by_cases heq : l = k
    · subst heq
      rw [if_pos rfl, if_pos rfl]
      refine congrArg _ ((List.map_congr_left fun q hq => ?_).trans (List.map_id m)).symm
      have hne : q.1 ≠ l := by
        rintro rfl
        exact hl (List.mem_map.mpr ⟨q, hq, rfl⟩)
      rw [if_neg hne]
      rfl
    · rw [if_neg heq, if_neg heq, ih hm (List.mem_of_ne_of_mem (Ne.symm heq) hk)]

theorem ofList_concat (xs : List (κ × ν)) (k : κ) (v : ν) :
    ofList (xs ++ [(k, v)]) = put k v (ofList xs) := by simp [ofList]

theorem nodup_keys_ofList (xs : List (κ × ν)) : (keys (ofList xs)).Nodup := by
  induction xs using List.reverseRecOn with
  | nil => simp [ofList, keys]
  | append_singleton xs p ih =>
    obtain ⟨k, v⟩ := p
    rw [ofList_concat]
    exact nodup_keys_put ih

theorem find_ofList (f : ν → κ) (xs : List ν) (k : κ) :
    find k (ofList (xs.map fun v => (f v, v))) = lastWith f xs k := by
  induction xs using List.reverseRecOn with
  | nil => rfl
  | append_singleton xs v ih =>
    rw [List.map_append, List.map_singleton, ofList_concat, lastWith, List.filter_append]
    by_cases h : f v = k
    · subst h
      simp
    · rw [find_put_ne _ _ (Ne.symm h), ih]
      simp [lastWith, h]

theorem find_ofList_pairs (ps : List (κ × ν)) (k : κ) :
    find k (ofList ps) = (lastWith Prod.fst ps k).map Prod.snd := by
  induction ps using List.reverseRecOn with
  | nil => rfl
  | append_singleton ps p ih =>
    obtain ⟨l, w⟩ := p
    rw [ofList_concat, lastWith, List.filter_append]
    by_cases h : l = k
    · subst h
      simp
    · rw [find_put_ne _ _ (Ne.symm h), ih]
      simp [lastWith, h]

theorem mem_ofList (f : ν → κ) (xs : List ν) {k : κ} {v : ν} :
    (k, v) ∈ ofList (xs.map fun v => (f v, v)) ↔ lastWith f xs k = some v := by
  rw [← find_ofList, find_eq_some (nodup_keys_ofList _)]

theorem lastWith_key {f : ν → κ} {xs : List ν} {k : κ} {v : ν} (h : lastWith f xs k = some v) :
    f v = k ∧ v ∈ xs := by
  have hm := List.mem_of_getLast? h
  simpa [and_comm] using hm

theorem lastWith_eq_none {f : ν → κ} {xs : List ν} {k : κ} :
    lastWith f xs k = none ↔ ∀ v ∈ xs, f v ≠ k := by
  simp [lastWith]

theorem find_map_values {μ : Type} (g : ν → μ) (m : List (κ × ν)) (k : κ) :
    find k (m.map fun p => (p.1, g p.2)) = (find k m).map g := by
  induction m with
  | nil => rfl
  | cons p m ih =>
    rw [List.map_cons, find, find, ih]
    split <;> rfl

theorem lastWith_map {μ : Type} (g : μ → ν) (f : ν → κ) (xs : List μ) (k : κ) :
    lastWith f (xs.map g) k = (lastWith (fun x => f (g x)) xs k).map g := by
  rw [lastWith, lastWith, List.filter_map, List.getLast?_map]
  rfl

end OrderedMap
