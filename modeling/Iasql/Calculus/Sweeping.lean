import Mathlib.Data.Set.Basic
import Mathlib.Data.List.Chain

namespace Sweeping

variable {T R : Type}

-- what emptying a table takes with it, and the rows that forbid it
structure Sweep (T R : Type) where
  sweeps : T → Set R
  blocks : T → Set R

variable {D : Sweep T R} {S S' : Set R} {as plan : List T} {t u : T} {r : R}

def attempt (D : Sweep T R) (S : Set R) (t : T) : Set R :=
  {r | r ∈ S ∧ (r ∈ D.sweeps t → ∃ b ∈ S, b ∈ D.blocks t)}

def attempts (D : Sweep T R) (S : Set R) (as : List T) : Set R := as.foldl (attempt D) S

def InOrder (D : Sweep T R) (S : Set R) (plan : List T) : Prop :=
  ∀ done t rest, plan = done ++ t :: rest →
    ∀ b ∈ S, b ∈ D.blocks t → ∃ u ∈ done, b ∈ D.sweeps u

theorem attempt_subset : attempt D S t ⊆ S := fun _ h => h.1

theorem attempts_subset : attempts D S as ⊆ S := by
  induction as generalizing S with
  | nil => exact fun _ h => h
  | cons a as ih => exact fun r h => attempt_subset (ih h)

theorem attempts_snoc : attempts D S (as ++ [t]) = attempt D (attempts D S as) t := by
  simp [attempts]

theorem attempts_append {bs : List T} :
    attempts D S (as ++ bs) = attempts D (attempts D S as) bs := by
  simp [attempts]

theorem attempt_eq_self (h : ∀ r ∈ S, r ∉ D.sweeps t) : attempt D S t = S :=
  Set.Subset.antisymm attempt_subset fun r hr => ⟨hr, fun hsweep => absurd hsweep (h r hr)⟩

theorem attempts_filter {q : T → Bool}
    (h : ∀ t ∈ as, q t = false → ∀ r ∈ S, r ∉ D.sweeps t) :
    attempts D S (as.filter q) = attempts D S as := by
  induction as generalizing S with
  | nil => rfl
  | cons a as ih =>
    have hrest := ih (S := attempt D S a) fun t ht hq r hr =>
      h t (List.mem_cons_of_mem a ht) hq r (attempt_subset hr)
    cases hq : q a with
    | true => simpa [hq, attempts] using hrest
    | false =>
      have hself : attempt D S a = S := attempt_eq_self (h a List.mem_cons_self hq)
      rw [hself] at hrest
      rw [List.filter_cons_of_neg (by simp [hq]), hrest]
      simp [attempts, hself]

theorem attempts_eq_self (h : ∀ t ∈ as, ∀ r ∈ S, r ∉ D.sweeps t) : attempts D S as = S := by
  have hnone : attempts D S (as.filter fun _ => false) = attempts D S as :=
    attempts_filter fun t ht _ => h t ht
  rw [← hnone, List.filter_false]
  rfl

theorem attempt_of_free (h : ∀ b ∈ S, b ∉ D.blocks t) :
    attempt D S t = {r | r ∈ S ∧ r ∉ D.sweeps t} := by
  ext r
  constructor
  · rintro ⟨hr, hblocked⟩
    refine ⟨hr, fun hsweep => ?_⟩
    obtain ⟨b, hb, hblock⟩ := hblocked hsweep
    exact h b hb hblock
  · rintro ⟨hr, hout⟩
    exact ⟨hr, fun hsweep => absurd hsweep hout⟩

theorem attempt_of_blocked {b : R} (hb : b ∈ S) (h : b ∈ D.blocks t) : attempt D S t = S :=
  Set.Subset.antisymm attempt_subset fun _ hr => ⟨hr, fun _ => ⟨b, hb, h⟩⟩

theorem inOrder_nil : InOrder D S [] := fun done t rest h => by simp at h

theorem InOrder.before {done : List T} (h : InOrder D S plan) (hdone : done <+: plan) :
    InOrder D S done := by
  obtain ⟨rest, rfl⟩ := hdone
  rintro first t last rfl b hb hblock
  exact h first t (last ++ rest) (by simp) b hb hblock

theorem InOrder.snoc (h : InOrder D S plan)
    (ht : ∀ b ∈ S, b ∈ D.blocks t → ∃ u ∈ plan, b ∈ D.sweeps u) :
    InOrder D S (plan ++ [t]) := by
  intro done u rest heq b hb hblock
  cases rest using List.reverseRecOn with
  | nil =>
    obtain ⟨rfl, hlast⟩ := List.append_inj' heq rfl
    obtain rfl := List.singleton_inj.mp hlast
    exact ht b hb hblock
  | append_singleton rest v =>
    rw [← List.cons_append, ← List.append_assoc] at heq
    obtain ⟨rfl, -⟩ := List.append_inj' heq rfl
    exact h done u rest rfl b hb hblock

-- the attempts that succeed make a plan, and they take all that goes
theorem exists_plan (D : Sweep T R) (S : Set R) (as : List T) :
    ∃ plan, List.Sublist plan as ∧ InOrder D S plan ∧
      attempts D S as = {r | r ∈ S ∧ ∀ t ∈ plan, r ∉ D.sweeps t} := by
  induction as using List.reverseRecOn with
  | nil => exact ⟨[], .slnil, inOrder_nil, by simp [attempts]⟩
  | append_singleton as t ih =>
    obtain ⟨plan, hsub, horder, heq⟩ := ih
    by_cases hblocked : ∃ b ∈ attempts D S as, b ∈ D.blocks t
    · obtain ⟨b, hb, hblock⟩ := hblocked
      refine ⟨plan, hsub.trans (List.sublist_append_left as [t]), horder, ?_⟩
      rw [attempts_snoc, attempt_of_blocked hb hblock, heq]
    · push Not at hblocked
      refine ⟨plan ++ [t], hsub.append (List.Sublist.refl _), horder.snoc ?_, ?_⟩
      · intro b hb hblock
        by_contra hnone
        push Not at hnone
        exact hblocked b (heq ▸ ⟨hb, hnone⟩) hblock
      · rw [attempts_snoc, attempt_of_free hblocked, heq]
        ext r
        simp only [Set.mem_ofPred_eq, List.mem_append, List.mem_singleton, and_assoc]
        refine and_congr_right fun _ => ?_
        constructor
        · rintro ⟨hplan, hlast⟩ u (hu | rfl)
          · exact hplan u hu
          · exact hlast
        · exact fun hall => ⟨fun u hu => hall u (.inl hu), hall t (.inr rfl)⟩

-- no plan does better than trying every table of it whenever its turn comes
theorem swept_of_plan (done : List T) (hsub : List.Sublist plan as) (hS : S' ⊆ S)
    (horder : InOrder D S (done ++ plan)) (hdone : ∀ u ∈ done, ∀ r ∈ S', r ∉ D.sweeps u)
    (ht : t ∈ done ++ plan) (hr : r ∈ attempts D S' as) : r ∉ D.sweeps t := by
  induction hsub generalizing S' done with
  | slnil => exact hdone t (by simpa using ht) r hr
  | @cons plan as a _ ih =>
    have hless : attempt D S' a ⊆ S' := attempt_subset
    exact ih done (hless.trans hS) horder (fun u hu r hr => hdone u hu r (hless hr)) ht hr
  | @cons_cons plan as a _ ih =>
    have hfree : ∀ b ∈ S', b ∉ D.blocks a := by
      intro b hb hblock
      obtain ⟨u, hu, hsweep⟩ := horder done a plan rfl b (hS hb) hblock
      exact hdone u hu b hb hsweep
    have hstep : attempt D S' a = {r | r ∈ S' ∧ r ∉ D.sweeps a} := attempt_of_free hfree
    refine ih (done ++ [a]) (attempt_subset.trans hS) (by simpa using horder) ?_
      (by simpa using ht) hr
    intro u hu r hr
    rw [hstep] at hr
    obtain hu | hu := List.mem_append.mp hu
    · exact hdone u hu r hr.1
    · exact List.mem_singleton.mp hu ▸ hr.2

theorem mem_attempts_iff : r ∈ attempts D S as ↔
    r ∈ S ∧ ∀ plan, List.Sublist plan as → InOrder D S plan → ∀ t ∈ plan, r ∉ D.sweeps t := by
  constructor
  · intro hr
    refine ⟨attempts_subset hr, fun plan hsub horder t ht => ?_⟩
    exact swept_of_plan [] hsub Set.Subset.rfl horder nofun ht hr
  · rintro ⟨hr, hplans⟩
    obtain ⟨plan, hsub, horder, heq⟩ := exists_plan D S as
    rw [heq]
    exact ⟨hr, fun t ht => hplans plan hsub horder t ht⟩

section Chains

variable {home : R → T}

-- a row of u forbids t
def Behind (D : Sweep T R) (S : Set R) (home : R → T) (t u : T) : Prop :=
  ∃ b ∈ S, b ∈ D.blocks t ∧ home b = u

theorem exists_chain (hhome : ∀ r ∈ S, r ∈ D.sweeps (home r)) (hr : r ∈ attempts D S as) :
    ∃ c, List.IsChain (Behind D S home) (home r :: c) ∧
      ¬List.Sublist (home r :: c).reverse as := by
  induction as using List.reverseRecOn generalizing r with
  | nil => exact ⟨[], .singleton _, by simp⟩
  | append_singleton as t ih =>
    rw [attempts_snoc] at hr
    obtain ⟨hbefore, hblocked⟩ := hr
    by_cases ht : home r = t
    · obtain ⟨b, hb, hblock⟩ := hblocked (ht ▸ hhome r (attempts_subset hbefore))
      obtain ⟨c, hchain, hnot⟩ := ih hb
      refine ⟨home b :: c, .cons_cons ⟨b, attempts_subset hb, ht ▸ hblock, rfl⟩ hchain, ?_⟩
      rw [List.reverse_cons, ht]
      exact fun hsub => hnot (List.append_sublist_append_right _ |>.mp hsub)
    · obtain ⟨c, hchain, hnot⟩ := ih hbefore
      refine ⟨c, hchain, fun hsub => hnot ?_⟩
      have hrev : List.Sublist (home r :: c) (t :: as.reverse) := by
        rw [← List.reverse_sublist]
        simpa using hsub
      obtain hsub' | ⟨heq, -⟩ := List.cons_sublist_cons'.mp hrev
      · rw [← List.reverse_sublist]
        simpa using hsub'
      · exact absurd heq ht

theorem chain_sublist (honly : ∀ t, ∀ r ∈ S, r ∈ D.sweeps t → home r = t)
    {c : List T} (horder : InOrder D S plan) (ht : t ∈ plan)
    (hchain : List.IsChain (Behind D S home) (t :: c)) :
    List.Sublist (t :: c).reverse plan := by
  induction c generalizing t plan with
  | nil => simpa using ht
  | cons u c ih =>
    obtain ⟨⟨b, hb, hblock, hhome⟩, htail⟩ := List.isChain_cons_cons.mp hchain
    obtain ⟨done, rest, rfl⟩ := List.append_of_mem ht
    obtain ⟨v, hv, hsweep⟩ := horder done t rest rfl b hb hblock
    have huv : u = v := hhome.symm.trans (honly v b hb hsweep)
    have hrest := ih (horder.before (List.prefix_append _ _)) (huv ▸ hv) htail
    rw [List.reverse_cons]
    exact hrest.append (List.singleton_sublist.mpr List.mem_cons_self)

end Chains

end Sweeping
