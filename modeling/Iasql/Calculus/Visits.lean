import Iasql.Calculus.Halting
import Mathlib.Data.List.TakeWhile
import Mathlib.Data.List.Count

namespace Program

namespace Prog

variable {σ τ ε α β γ : Type}

section Visits

variable (f : γ → Prog σ ε (List α)) (p : γ → Bool)

-- the state in which a loop comes to the first item of a kind
def atFirst (xs : List γ) (s : σ) : σ := (gather f (xs.takeWhile fun x => !p x) s).2

variable {f p} {xs : List γ} {s t : σ} {out : List α}

theorem gather_append {ys : List γ} (h : gather f (xs ++ ys) s = (.returned out, t)) :
    ∃ os u os', gather f xs s = (.returned os, u) ∧ gather f ys u = (.returned os', t) ∧
      out = os ++ os' := by
  induction xs generalizing s out with
  | nil => exact ⟨[], s, out, rfl, h, rfl⟩
  | cons x xs ih =>
    obtain ⟨o, u, ho, hrest⟩ := bind_returned_inv h
    obtain ⟨rest, v, hxs, hpure⟩ := bind_returned_inv hrest
    cases hpure
    obtain ⟨os, w, os', hos, hys, rfl⟩ := ih hxs
    refine ⟨o ++ os, w, os', ?_, hys, by simp⟩
    change (f x >>= fun o => gather f xs >>= fun rest => pure (o ++ rest)) s = _
    rw [bind_of_returned ho, bind_of_returned hos]
    rfl

theorem gather_visit (h : gather f xs s = (.returned out, t)) (hx : ∃ x ∈ xs, p x = true) :
    ∃ x rest pre o v post, xs = (xs.takeWhile fun x => !p x) ++ x :: rest ∧ p x = true ∧
      gather f (xs.takeWhile fun x => !p x) s = (.returned pre, atFirst f p xs s) ∧
        f x (atFirst f p xs s) = (.returned o, v) ∧ gather f rest v = (.returned post, t) ∧
          out = pre ++ o ++ post := by
  have hsplit := List.takeWhile_append_dropWhile (p := fun x => !p x) (l := xs)
  cases hdrop : xs.dropWhile fun x => !p x with
  | nil =>
    obtain ⟨x, hmem, hpx⟩ := hx
    have hall := List.dropWhile_eq_nil_iff.mp hdrop x hmem
    simp [hpx] at hall
  | cons x rest =>
    have hpx : p x = true := by
      have := List.head?_dropWhile_not (fun x => !p x) xs
      rw [hdrop] at this
      simpa using this
    rw [hdrop] at hsplit
    rw [← hsplit] at h
    obtain ⟨pre, u, os, hpre, hcons, rfl⟩ := gather_append h
    obtain ⟨o, v, ho, hrest⟩ := bind_returned_inv hcons
    obtain ⟨post, w, hpost, hpure⟩ := bind_returned_inv hrest
    cases hpure
    have hat : atFirst f p xs s = u := by rw [atFirst, hpre]
    exact ⟨x, rest, pre, o, v, post, hsplit.symm, hpx, by rw [hat]; exact hpre,
      by rw [hat]; exact ho, hpost, by simp⟩

theorem gather_forall {P : α → Prop} (h : gather f xs s = (.returned out, t))
    (hP : ∀ x ∈ xs, ∀ u o v, f x u = (.returned o, v) → ∀ a ∈ o, P a) : ∀ a ∈ out, P a := by
  induction xs generalizing s out with
  | nil =>
    cases h
    simp
  | cons x xs ih =>
    obtain ⟨o, u, ho, hrest⟩ := bind_returned_inv h
    obtain ⟨rest, v, hxs, hpure⟩ := bind_returned_inv hrest
    cases hpure
    intro a ha
    rcases List.mem_append.mp ha with ha | ha
    · exact hP x (by simp) s o u ho a ha
    · exact ih hxs (fun y hy => hP y (by simp [hy])) a ha

theorem rel_atFirst {F : Frame σ} (hF : ∀ x, F.Keeps (f x)) : F.rel s (atFirst f p xs s) :=
  Frame.keeps_gather (fun x _ => hF x) s

theorem gather_first {F : Frame σ} (hF : ∀ x, F.Keeps (f x))
    (h : gather f xs s = (.returned out, t)) (hx : ∃ x ∈ xs, p x = true) :
    ∃ x ∈ xs, p x = true ∧ ∃ o v, f x (atFirst f p xs s) = (.returned o, v) ∧ F.rel v t ∧
      o ⊆ out ∧ ∀ q : α → Bool, (xs.filter p).length ≤ 1 →
        (∀ y ∈ xs, p y = false → ∀ u o v, f y u = (.returned o, v) → ∀ a ∈ o, q a = false) →
          out.countP q = o.countP q := by
  obtain ⟨x, rest, pre, o, v, post, hsplit, hpx, hpre, ho, hpost, rfl⟩ := gather_visit h hx
  have hrel : F.rel v t := Frame.rel_of_eq (Frame.keeps_gather fun y _ => hF y) hpost
  refine ⟨x, by rw [hsplit]; simp, hpx, o, v, ho, hrel, fun a ha => by simp [ha], ?_⟩
  intro q hone hothers
  have hrest : ∀ y ∈ rest, p y = false := by
    intro y hy
    rw [hsplit, List.filter_append, List.filter_cons_of_pos hpx, List.length_append,
      List.length_cons] at hone
    have hnil : rest.filter p = [] := List.eq_nil_of_length_eq_zero (by omega)
    simpa using List.filter_eq_nil_iff.mp hnil y hy
  have hbefore : ∀ y ∈ xs.takeWhile fun x => !p x, p y = false := by
    intro y hy
    simpa using List.mem_takeWhile_imp hy
  have hnone {ys : List γ} {os : List α} {u w : σ} (hys : ∀ y ∈ ys, p y = false) (hsub : ys ⊆ xs)
      (hrun : gather f ys u = (.returned os, w)) : os.countP q = 0 := by
    rw [List.countP_eq_zero]
    intro a ha
    have := gather_forall hrun (P := fun a => q a = false)
      (fun y hy => hothers y (hsub hy) (hys y hy)) a ha
    simp [this]
  have hrestsub : rest ⊆ xs := fun y hy => by rw [hsplit]; simp [hy]
  rw [List.countP_append, List.countP_append,
    hnone hbefore (List.takeWhile_subset _) hpre, hnone hrest hrestsub hpost]
  omega

end Visits

end Prog

section Keyed

variable {κ α β : Type} {key : κ} {g : κ × α → List β} {q : β → Bool}

theorem countP_keyed {entries : List (κ × α)} (hnodup : (entries.map Prod.fst).Nodup)
    (hkey : ∀ p ∈ entries, p.1 ≠ key → (g p).countP q = 0) :
    (∃ a, (key, a) ∈ entries ∧ (entries.flatMap g).countP q = (g (key, a)).countP q) ∨
      key ∉ entries.map Prod.fst ∧ (entries.flatMap g).countP q = 0 := by
  induction entries with
  | nil => exact .inr ⟨by simp, rfl⟩
  | cons p entries ih =>
    obtain ⟨k, a⟩ := p
    obtain ⟨hnot, hrest⟩ := List.nodup_cons.mp hnodup
    rw [List.flatMap_cons, List.countP_append]
    by_cases hk : k = key
    · subst hk
      have hzero : (entries.flatMap g).countP q = 0 := by
        rw [List.countP_flatMap, List.sum_eq_zero_iff_forall_eq_nat]
        intro n hn
        obtain ⟨p, hp, rfl⟩ := List.mem_map.mp hn
        exact hkey p (by simp [hp]) fun heq => hnot (List.mem_map.mpr ⟨p, hp, heq⟩)
      exact .inl ⟨a, by simp, by omega⟩
    · have hzero := hkey (k, a) (by simp) hk
      rcases ih hrest (fun p hp => hkey p (by simp [hp])) with ⟨b, hb, hcount⟩ | ⟨hb, hcount⟩
      · exact .inl ⟨b, by simp [hb], by omega⟩
      · refine .inr ⟨?_, by omega⟩
        rw [List.map_cons, List.mem_cons, not_or]
        exact ⟨fun heq => hk heq.symm, hb⟩

end Keyed

end Program
