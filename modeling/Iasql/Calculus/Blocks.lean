import Mathlib.Data.List.Nodup
import Mathlib.Data.List.Perm.Basic

namespace Blocks

variable {α β κ : Type} {bs : List β} {b : β} {f : β → List α} {p : α → Bool} {q : β → Bool}

theorem flatMap_congr {g : β → List α} (h : ∀ a ∈ bs, f a = g a) : bs.flatMap f = bs.flatMap g := by
  induction bs with
  | nil => rfl
  | cons a bs ih =>
    rw [List.flatMap_cons, List.flatMap_cons, h a List.mem_cons_self,
      ih fun c hc => h c (List.mem_cons_of_mem a hc)]

-- a condition on the rows that each block meets as a whole
theorem filter_flatMap_eq (h : ∀ a ∈ bs, ∀ x ∈ f a, p x = q a) :
    (bs.flatMap f).filter p = (bs.filter q).flatMap f := by
  induction bs with
  | nil => rfl
  | cons a bs ih =>
    have hrest := ih fun c hc => h c (List.mem_cons_of_mem a hc)
    rw [List.flatMap_cons, List.filter_append, hrest]
    cases hq : q a with
    | true =>
      have hall : ∀ x ∈ f a, p x = true := fun x hx => (h a List.mem_cons_self x hx).trans hq
      rw [List.filter_eq_self.mpr hall, List.filter_cons_of_pos hq, List.flatMap_cons]
    | false =>
      have hnone : ∀ x ∈ f a, ¬p x = true := fun x hx => by
        simp [h a List.mem_cons_self x hx, hq]
      rw [List.filter_eq_nil_iff.mpr hnone, List.filter_cons_of_neg (by simp [hq]),
        List.nil_append]

theorem flatMap_filter_eq (h : ∀ a ∈ bs, q a = false → f a = []) :
    (bs.filter q).flatMap f = bs.flatMap f := by
  induction bs with
  | nil => rfl
  | cons a bs ih =>
    have hrest := ih fun c hc => h c (List.mem_cons_of_mem a hc)
    cases hq : q a with
    | true => rw [List.filter_cons_of_pos hq, List.flatMap_cons, List.flatMap_cons, hrest]
    | false =>
      rw [List.filter_cons_of_neg (by simp [hq]), List.flatMap_cons,
        h a List.mem_cons_self hq, List.nil_append, hrest]

theorem filter_flatMap_self (h : ∀ a ∈ bs, ∀ x ∈ f a, p x = true) :
    (bs.flatMap f).filter p = bs.flatMap f := by
  refine List.filter_eq_self.mpr fun x hx => ?_
  obtain ⟨a, ha, hmem⟩ := List.mem_flatMap.mp hx
  exact h a ha x hmem

theorem filter_eq_singleton (hnodup : bs.Nodup) (hb : b ∈ bs)
    (h : ∀ a ∈ bs, q a = true ↔ a = b) : bs.filter q = [b] := by
  induction bs with
  | nil => cases hb
  | cons c bs ih =>
    obtain ⟨hfresh, hrest⟩ := List.nodup_cons.mp hnodup
    obtain rfl | hmem := List.mem_cons.mp hb
    · have hnone : bs.filter q = [] := by
        refine List.filter_eq_nil_iff.mpr fun a ha hq => hfresh ?_
        exact (h a (List.mem_cons_of_mem _ ha)).mp hq ▸ ha
      rw [List.filter_cons_of_pos ((h _ List.mem_cons_self).mpr rfl), hnone]
    · have hc : ¬q c = true := fun hq => hfresh ((h c List.mem_cons_self).mp hq ▸ hmem)
      rw [List.filter_cons_of_neg hc]
      exact ih hrest hmem fun a ha => h a (List.mem_cons_of_mem c ha)

-- a condition that only rows of one block meet
theorem filter_flatMap_one (hnodup : bs.Nodup) (hb : b ∈ bs)
    (h : ∀ a ∈ bs, ∀ x ∈ f a, p x = true → a = b) :
    (bs.flatMap f).filter p = (f b).filter p := by
  induction bs with
  | nil => cases hb
  | cons c bs ih =>
    obtain ⟨hfresh, hrest⟩ := List.nodup_cons.mp hnodup
    rw [List.flatMap_cons, List.filter_append]
    obtain rfl | hmem := List.mem_cons.mp hb
    · have hnone : (bs.flatMap f).filter p = [] := by
        refine List.filter_eq_nil_iff.mpr fun x hx hp => hfresh ?_
        obtain ⟨a, ha, hmem⟩ := List.mem_flatMap.mp hx
        exact h a (List.mem_cons_of_mem _ ha) x hmem hp ▸ ha
      rw [hnone, List.append_nil]
    · have hnone : (f c).filter p = [] := by
        refine List.filter_eq_nil_iff.mpr fun x hx hp => hfresh ?_
        exact h c List.mem_cons_self x hx hp ▸ hmem
      rw [hnone, List.nil_append]
      exact ih hrest hmem fun a ha => h a (List.mem_cons_of_mem c ha)

theorem find?_flatMap_one (hnodup : bs.Nodup) (hb : b ∈ bs)
    (h : ∀ a ∈ bs, ∀ x ∈ f a, p x = true → a = b) : (bs.flatMap f).find? p = (f b).find? p := by
  rw [← List.head?_filter, filter_flatMap_one hnodup hb h, List.head?_filter]

theorem filter_key_eq [DecidableEq κ] {key : β → κ} (hnodup : (bs.map key).Nodup)
    (hb : b ∈ bs) : bs.filter (fun a => key a = key b) = [b] := by
  refine filter_eq_singleton (List.Nodup.of_map key hnodup) hb fun a ha => ?_
  rw [decide_eq_true_eq]
  exact ⟨List.inj_on_of_nodup_map hnodup ha hb, congrArg key⟩

theorem perm_cons_filter [DecidableEq κ] {key : β → κ} (hnodup : (bs.map key).Nodup)
    (hb : b ∈ bs) : bs.Perm (b :: bs.filter fun a => key a ≠ key b) := by
  have hsplit := List.filter_append_perm (fun a => decide (key a = key b)) bs
  rw [filter_key_eq hnodup hb] at hsplit
  simpa using hsplit.symm

end Blocks
