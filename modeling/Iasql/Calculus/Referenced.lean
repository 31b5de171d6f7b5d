import Mathlib.Data.List.Nodup
import Mathlib.Data.List.Perm.Subperm

namespace Referenced

variable {α κ : Type} [DecidableEq κ] (key : α → Option κ)

-- the rows with one of the listed keys; a null is no key, neither of a row nor in the list
def matching (xs : List (Option κ)) (rows : List α) : List α :=
  rows.filter fun r => (key r).isSome && decide (key r ∈ xs)

def Distinct (rows : List α) : Prop := rows.Pairwise fun r s => key r ≠ none → key r ≠ key s

variable {key} {xs : List (Option κ)} {rows : List α} {r s : α}

theorem mem_matching : r ∈ matching key xs rows ↔ r ∈ rows ∧ key r ≠ none ∧ key r ∈ xs := by
  rw [matching, List.mem_filter, Bool.and_eq_true, decide_eq_true_eq, Option.isSome_iff_ne_none]

omit [DecidableEq κ] in
theorem Distinct.eq (h : Distinct key rows) (hr : r ∈ rows) (hs : s ∈ rows) (hne : key r ≠ none)
    (heq : key r = key s) : r = s := by
  induction rows with
  | nil => cases hr
  | cons a rows ih =>
    obtain ⟨ha, hrows⟩ := List.pairwise_cons.mp h
    rcases List.mem_cons.mp hr with rfl | hr' <;> rcases List.mem_cons.mp hs with rfl | hs'
    · rfl
    · exact absurd heq (ha s hs' hne)
    · exact absurd heq.symm (ha r hr' (heq ▸ hne))
    · exact ih hrows hr' hs'

theorem nodup_keys_matching (h : Distinct key rows) : ((matching key xs rows).map key).Nodup := by
  have hpair : (matching key xs rows).Pairwise fun r s => key r ≠ none → key r ≠ key s :=
    List.Pairwise.sublist List.filter_sublist h
  rw [List.Nodup, List.pairwise_map]
  exact hpair.imp_of_mem fun hr _ hne => hne (mem_matching.mp hr).2.1

theorem keys_matching_subset : (matching key xs rows).map key ⊆ xs := by
  intro x hx
  obtain ⟨r, hr, rfl⟩ := List.mem_map.mp hx
  exact (mem_matching.mp hr).2.2

-- as many rows as listed keys: no key is left without its row
theorem exists_of_length (h : Distinct key rows) (hlength : (matching key xs rows).length = xs.length)
    {x : Option κ} (hx : x ∈ xs) : ∃ r ∈ rows, key r = x ∧ x ≠ none := by
  have hsub : ((matching key xs rows).map key).Subperm xs :=
    List.Nodup.subperm (nodup_keys_matching h) keys_matching_subset
  have hperm : ((matching key xs rows).map key).Perm xs :=
    hsub.perm_of_length_le (Nat.le_of_eq (by rw [List.length_map, hlength]))
  obtain ⟨r, hr, rfl⟩ := List.mem_map.mp (hperm.mem_iff.mpr hx)
  exact ⟨r, (mem_matching.mp hr).1, rfl, (mem_matching.mp hr).2.1⟩

theorem length_of_exists (h : Distinct key rows) {ids : List κ} (hnodup : ids.Nodup)
    (hrows : ∀ i ∈ ids, ∃ r ∈ rows, key r = some i) :
    (matching key (ids.map some) rows).length = ids.length := by
  have hperm : ((matching key (ids.map some) rows).map key).Perm (ids.map some) := by
    refine (List.perm_ext_iff_of_nodup (nodup_keys_matching h)
      (hnodup.map fun _ _ => Option.some.inj)).mpr fun x => ⟨fun hx => keys_matching_subset hx, fun hx => ?_⟩
    obtain ⟨i, hi, rfl⟩ := List.mem_map.mp hx
    obtain ⟨r, hr, hkey⟩ := hrows i hi
    refine List.mem_map.mpr ⟨r, mem_matching.mpr ⟨hr, ?_, ?_⟩, hkey⟩
    · rw [hkey]
      exact Option.some_ne_none i
    · rw [hkey]
      exact hx
  have hlength := hperm.length_eq
  rwa [List.length_map, List.length_map] at hlength

omit [DecidableEq κ] in
theorem Distinct.filter (h : Distinct key rows) (p : α → Bool) : Distinct key (rows.filter p) :=
  List.Pairwise.sublist List.filter_sublist h

end Referenced
