import Iasql.Calculus.Dict
import Mathlib.Data.List.Sort

namespace OwnKeys

open OrderedMap

section Order

variable {κ ν : Type} (index : κ → Option Nat)

-- first the keys with an index, by it, and then the others as they were put
def ownOrder (m : List (κ × ν)) : List (κ × ν) :=
  (m.filter fun p => (index p.1).isSome).insertionSort
      (fun p q => (index p.1).getD 0 ≤ (index q.1).getD 0) ++
    m.filter fun p => (index p.1).isNone

-- the key k comes before l whatever the order in which they were put
def Ahead (k l : κ) : Prop := ∃ i, index k = some i ∧ ∀ j, index l = some j → i < j

variable {index} {m : List (κ × ν)} {p : κ × ν} {k l : κ} {v w : ν}

theorem ownOrder_perm : (ownOrder index m).Perm m := by
  refine ((List.perm_insertionSort _ _).append_right _).trans ?_
  have hsplit := List.filter_append_perm (fun p : κ × ν => (index p.1).isSome) m
  refine .trans (.of_eq ?_) hsplit
  congr 1
  refine List.filter_congr fun p _ => ?_
  cases index p.1 <;> rfl

@[simp] theorem ownOrder_singleton : ownOrder index [p] = [p] :=
  List.perm_singleton.mp ownOrder_perm

theorem ownOrder_of_ahead (h : Ahead index l k) : ownOrder index [(k, v), (l, w)] = [(l, w), (k, v)] := by
  obtain ⟨i, hi, hbefore⟩ := h
  rw [ownOrder]
  cases hp : index k with
  | none => simp [hp, hi]
  | some j =>
    have hlt := hbefore j hp
    simp [hp, hi, Nat.not_le.mpr hlt]

theorem ownOrder_of_not_ahead (h : ¬ Ahead index l k) :
    ownOrder index [(k, v), (l, w)] = [(k, v), (l, w)] := by
  rw [ownOrder]
  cases hq : index l with
  | none =>
    cases hp : index k with
    | none => simp [hp, hq]
    | some j => simp [hp, hq]
  | some i =>
    have hp : ∃ j, index k = some j ∧ j ≤ i := by
      by_contra hno
      refine h ⟨i, hq, fun j hj => Nat.not_le.mp fun hle => hno ⟨j, hj, hle⟩⟩
    obtain ⟨j, hp, hle⟩ := hp
    simp [hp, hq, hle]

theorem ownOrder_pair_iff (hne : k ≠ l) :
    ownOrder index [(k, v), (l, w)] = [(k, v), (l, w)] ↔ ¬ Ahead index l k := by
  refine ⟨fun h hahead => ?_, ownOrder_of_not_ahead⟩
  rw [ownOrder_of_ahead hahead] at h
  exact hne (Prod.ext_iff.mp (List.cons.inj h).1).1.symm

end Order

section Objects

variable {κ ν : Type} [DecidableEq κ] {index : κ → Option Nat}

-- Object.fromEntries and JSON.parse, from the properties as they are written
def fromEntries (index : κ → Option Nat) (ps : List (κ × ν)) : List (κ × ν) := ownOrder index (ofList ps)

theorem nodup_fromEntries (ps : List (κ × ν)) : (keys (fromEntries index ps)).Nodup :=
  (ownOrder_perm.map Prod.fst).nodup_iff.mpr (nodup_keys_ofList ps)

theorem fromEntries_of_nodup {ps : List (κ × ν)} (h : (keys ps).Nodup) : fromEntries index ps = ownOrder index ps := by
  rw [fromEntries, ofList_of_nodup h]

theorem mem_of_mem_ofList {ps : List (κ × ν)} {p : κ × ν} (h : p ∈ ofList ps) : p ∈ ps :=
  Dict.mem_of_mem_ofList (h : (p.1, p.2) ∈ (Dict.ofList ps).entries)

end Objects

end OwnKeys
