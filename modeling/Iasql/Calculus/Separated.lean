import Mathlib.Data.List.Basic

namespace Separated

variable {α : Type} [BEq α] [LawfulBEq α] {x : α} {l k : List (List α)}

theorem not_mem_of_mem_splitOn {xs part : List α} (h : part ∈ xs.splitOn x) : x ∉ part := by
  induction xs generalizing part with
  | nil =>
    obtain rfl : part = [] := by simpa using h
    exact List.not_mem_nil
  | cons y ys ih =>
    rw [List.splitOn_cons_eq_if_modifyHead] at h
    split at h
    · rcases List.mem_cons.mp h with rfl | h
      · simp
      · exact ih h
    · next hy =>
      cases hsplit : ys.splitOn x with
      | nil => simp [hsplit] at h
      | cons first rest =>
        rw [hsplit, List.modifyHead_cons] at h
        rcases List.mem_cons.mp h with rfl | h
        · have hfirst : x ∉ first := ih (by simp [hsplit])
          have hne : x ≠ y := fun heq => hy (by simp [heq])
          exact List.not_mem_cons_of_ne_of_not_mem hne hfirst
        · exact ih (by simp [hsplit, h])

theorem intercalate_inj (hl : ∀ xs ∈ l, x ∉ xs) (hk : ∀ xs ∈ k, x ∉ xs) (hne : l ≠ [])
    (hne' : k ≠ []) (h : [x].intercalate l = [x].intercalate k) : l = k := by
  have hsplit := congrArg (List.splitOn x) h
  rwa [List.splitOn_intercalate x hl hne, List.splitOn_intercalate x hk hne'] at hsplit

theorem splitOn_of_not_mem {xs : List α} (h : x ∉ xs) : xs.splitOn x = [xs] := by
  rw [List.splitOn_eq_splitOnP]
  refine List.splitOnP_eq_singleton fun y hy => beq_eq_false_iff_ne.mpr ?_
  rintro rfl
  exact h hy

theorem splitOn_append (xs ys : List α) : (xs ++ x :: ys).splitOn x = xs.splitOn x ++ ys.splitOn x := by
  rw [List.splitOn_eq_splitOnP, List.splitOn_eq_splitOnP, List.splitOn_eq_splitOnP]
  exact List.splitOnP_append_cons xs ys (beq_self_eq_true x)

theorem splitOn_append_cons {xs : List α} (ys : List α) (h : x ∉ xs) :
    (xs ++ x :: ys).splitOn x = xs :: ys.splitOn x := by
  rw [splitOn_append, splitOn_of_not_mem h]
  rfl

theorem splitOn_ne_nil (xs : List α) : xs.splitOn x ≠ [] := by
  rw [List.splitOn_eq_splitOnP]
  exact List.splitOnP_ne_nil _ xs

end Separated
