import Iasql.Calculus.Program
import Mathlib.Logic.Function.Basic

namespace Program

namespace Prog

variable {σ ε α γ ι : Type} [DecidableEq ι]

-- the turn of an item works on the entry under its key, and on no other one
def turn (key : γ → ι) (f : γ → Prog σ ε (List α)) (x : γ) : Prog (ι → σ) ε (List α) :=
  within (fun s => s (key x)) (fun t s => Function.update s (key x) t) (f x)

variable {key : γ → ι} {f : γ → Prog σ ε (List α)} {x : γ} {xs : List γ} {s t : ι → σ} {out : List α}

theorem turn_returned (h : turn key f x s = (.returned out, t)) :
    f x (s (key x)) = (.returned out, t (key x)) ∧ ∀ k, k ≠ key x → t k = s k := by
  obtain ⟨hout, rfl⟩ := Prod.mk.inj h
  refine ⟨Prod.ext hout ?_, fun k hk => Function.update_of_ne hk _ _⟩
  exact (Function.update_self (key x) (f x (s (key x))).2 s).symm

-- where no two items have one key, each turn is what it is alone
theorem gather_turn (hnodup : (xs.map key).Nodup) (h : gather (turn key f) xs s = (.returned out, t)) :
    (∀ x ∈ xs, ∃ o, f x (s (key x)) = (.returned o, t (key x))) ∧ ∀ k, k ∉ xs.map key → t k = s k := by
  induction xs generalizing s out with
  | nil =>
    cases h
    exact ⟨fun _ hx => absurd hx List.not_mem_nil, fun _ _ => rfl⟩
  | cons x xs ih =>
    obtain ⟨hfresh, hnodup⟩ := List.nodup_cons.mp hnodup
    obtain ⟨o, u, hturn, hrest⟩ := bind_returned_inv h
    obtain ⟨os, v, hgather, hpure⟩ := bind_returned_inv hrest
    cases hpure
    obtain ⟨hfirst, hkept⟩ := turn_returned hturn
    obtain ⟨hothers, hframe⟩ := ih hnodup hgather
    constructor
    · intro y hy
      rcases List.mem_cons.mp hy with rfl | hy
      · exact ⟨o, by rw [hfirst, hframe (key y) hfresh]⟩
      · have hne : key y ≠ key x := fun heq => hfresh (heq ▸ List.mem_map_of_mem hy)
        obtain ⟨o', hy'⟩ := hothers y hy
        exact ⟨o', by rw [← hkept (key y) hne, hy']⟩
    · intro k hk
      obtain ⟨hne, hnotin⟩ := not_or.mp (mt List.mem_cons.mpr hk)
      rw [hframe k hnotin, hkept k hne]

end Prog

end Program
