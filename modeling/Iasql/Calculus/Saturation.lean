import Mathlib.Data.Finset.Basic
import Mathlib.Order.Hom.Basic
import Mathlib.Order.Bounds.Basic

namespace Saturation

variable {α : Type} [DecidableEq α]

-- a set that only ever took in an element its own elements made ready
inductive Grown (ready : Finset α →o Finset α) : Finset α → Prop
  | empty : Grown ready ∅
  | insert {S : Finset α} {i : α} : Grown ready S → i ∈ ready S → Grown ready (insert i S)

variable {ready : Finset α →o Finset α} {S T : Finset α}

namespace Grown

theorem subset_ready (h : Grown ready S) : S ⊆ ready S := by
  induction h with
  | empty => exact Finset.empty_subset _
  | @insert S i _ hi ih =>
    have hmono : ready S ⊆ ready (Insert.insert i S) := ready.monotone (Finset.subset_insert i S)
    intro x hx
    rcases Finset.mem_insert.mp hx with rfl | hx
    · exact hmono hi
    · exact hmono (ih hx)

theorem subset_of_closed (h : Grown ready S) (hT : ready T ⊆ T) : S ⊆ T := by
  induction h with
  | empty => exact Finset.empty_subset _
  | @insert S i _ hi ih =>
    intro x hx
    rcases Finset.mem_insert.mp hx with rfl | hx
    · exact hT (ready.monotone ih hi)
    · exact ih hx

theorem isLeast (h : Grown ready S) (hS : ready S ⊆ S) : IsLeast {T | ready T = T} S := by
  constructor
  · exact Finset.Subset.antisymm hS h.subset_ready
  · intro T hT
    have hfix : ready T = T := hT
    exact h.subset_of_closed hfix.subset

end Grown

end Saturation
