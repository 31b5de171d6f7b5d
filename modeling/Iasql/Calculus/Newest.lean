import Mathlib.Data.List.Sort

namespace Newest

-- the order among rows with equal keys is the store's own choice
structure Planner (α : Type) (key : α → Nat) where
  sort : List α → List α
  perm : ∀ l, (sort l).Perm l
  sorted : ∀ l, (sort l).Pairwise fun a b => key b ≤ key a

variable {α : Type} {key : α → Nat}

namespace Planner

def find (pl : Planner α key) (p : α → Bool) (l : List α) : List α := pl.sort (l.filter p)

def findOne (pl : Planner α key) (p : α → Bool) (l : List α) : Option α := (pl.find p l).head?

instance : IsTrans α fun a b => key b ≤ key a := ⟨fun _ _ _ h k => k.trans h⟩

instance : Std.Total fun a b : α => key b ≤ key a := ⟨fun _ _ => le_total _ _⟩

def stable (key : α → Nat) : Planner α key where
  sort := List.insertionSort fun a b => key b ≤ key a
  perm := List.perm_insertionSort _
  sorted := List.pairwise_insertionSort _

variable (pl : Planner α key) {p : α → Bool} {l : List α} {a b : α}

@[simp] theorem mem_find : a ∈ pl.find p l ↔ a ∈ l ∧ p a = true := by
  rw [find, (pl.perm _).mem_iff, List.mem_filter]

theorem findOne_eq_none : pl.findOne p l = none ↔ ∀ a ∈ l, p a = false := by
  rw [findOne, List.head?_eq_none_iff, List.eq_nil_iff_forall_not_mem]
  simp

theorem findOne_mem (h : pl.findOne p l = some a) : a ∈ l ∧ p a = true :=
  pl.mem_find.mp (List.mem_of_head? h)

theorem findOne_newest (h : pl.findOne p l = some a) (hb : b ∈ l) (hp : p b = true) :
    key b ≤ key a := by
  obtain ⟨rest, hrest⟩ := List.head?_eq_some_iff.mp h
  have hs := pl.sorted (l.filter p)
  change (pl.find p l).Pairwise _ at hs
  have hm : b ∈ pl.find p l := pl.mem_find.mpr ⟨hb, hp⟩
  rw [hrest] at hs hm
  rcases List.mem_cons.mp hm with rfl | hm
  · exact le_rfl
  · exact List.rel_of_pairwise_cons hs hm

theorem findOne_congr {l' : List α} (h : l.filter p = l'.filter p) :
    pl.findOne p l = pl.findOne p l' := by
  rw [findOne, findOne, find, find, h]

end Planner

end Newest
