import Mathlib.Data.List.Basic
import Mathlib.Logic.Relation

namespace Acyclic

open Relation

variable {α : Type} {r : α → α → Prop}

theorem exists_sink (h : ∀ a, ¬ TransGen r a a) :
    ∀ (n : Nat) (l : List α), l.length = n → l ≠ [] → ∃ a ∈ l, ∀ b ∈ l, ¬ r a b := by
  classical
  intro n
  induction n using Nat.strongRecOn with
  | ind n ih =>
    intro l hn hl
    obtain ⟨a, ha⟩ := List.exists_mem_of_ne_nil l hl
    by_cases hsink : ∀ b ∈ l, ¬ r a b
    · exact ⟨a, ha, hsink⟩
    · push Not at hsink
      obtain ⟨b, hb, hab⟩ := hsink
      have hbelow : b ∈ l.filter fun c => decide (TransGen r a c) :=
        List.mem_filter.mpr ⟨hb, decide_eq_true (.single hab)⟩
      have hshorter : (l.filter fun c => decide (TransGen r a c)).length < n := by
        rw [← hn]
        refine List.length_filter_lt_length_iff_exists.mpr ⟨a, ha, ?_⟩
        simp [h a]
      obtain ⟨c, hc, hlast⟩ := ih _ hshorter _ rfl (List.ne_nil_of_mem hbelow)
      obtain ⟨hcl, hac⟩ := List.mem_filter.mp hc
      have hreach : TransGen r a c := of_decide_eq_true hac
      refine ⟨c, hcl, fun d hd hcd => ?_⟩
      exact hlast d (List.mem_filter.mpr ⟨hd, decide_eq_true (hreach.tail hcd)⟩) hcd

theorem of_rank (rank : α → Nat) (h : ∀ a b, r a b → rank b < rank a) (a : α) :
    ¬ TransGen r a a := by
  have hlt : ∀ b, TransGen r a b → rank b < rank a := by
    intro b hb
    induction hb with
    | single hab => exact h _ _ hab
    | tail _ hbc ih =>
      have hstep := h _ _ hbc
      omega
  intro hcycle
  have hself := hlt a hcycle
  omega

end Acyclic
