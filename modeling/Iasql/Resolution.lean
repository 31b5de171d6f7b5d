import Iasql.LazyDep
import Mathlib.Data.Set.Basic
import Mathlib.Order.WellFounded

namespace Iasql

open Program Prog

section Resolution

variable {σ ι : Type} {f : ι → Prog σ Thrown Unit} {I : Set ι → σ → Prop} {rank : ι → Nat}
  {late : ι → Prop}

-- a pending item is done and leaves the others pending, or it is put off with all of them: then
-- one of a smaller rank is pending, unless the item is a late one
def Resolves (f : ι → Prog σ Thrown Unit) (I : Set ι → σ → Prop) (rank : ι → Nat)
    (late : ι → Prop) : Prop :=
  ∀ P x s, x ∈ P → I P s →
    (∃ t, f x s = (.returned (), t) ∧ I (P \ {x}) t) ∨
      ∃ e t, f x s = (.thrown e, t) ∧ e.carriesStack = true ∧ I P t ∧
        (late x ∨ ∃ y ∈ P, rank y < rank x)

def generatorsOf (f : ι → Prog σ Thrown Unit) (ys : List (Nat × ι)) : List (Generator σ) :=
  ys.map fun y => (y.1, f y.2)

def items (ys : List (Nat × ι)) : List ι := ys.map Prod.snd

@[simp] theorem items_nil : items ([] : List (Nat × ι)) = [] := rfl

@[simp] theorem items_cons (y : Nat × ι) (ys : List (Nat × ι)) :
    items (y :: ys) = y.2 :: items ys := rfl

theorem onePass_resolves (hf : Resolves f I rank late) {ys : List (Nat × ι)} {P : Set ι} {s : σ}
    (hnodup : (items ys).Nodup) (hP : ∀ x ∈ items ys, x ∈ P) (hI : I P s) :
    ∃ zs failures t Q,
      onePass (generatorsOf f ys) s = (.returned (generatorsOf f zs, failures), t) ∧
      zs.Sublist ys ∧ I Q t ∧ (∀ x, x ∈ Q ↔ x ∈ P ∧ (x ∈ items ys → x ∈ items zs)) ∧
      ∀ x ∈ items zs, late x ∨ ∃ y ∈ P, rank y < rank x := by
  induction ys generalizing P s with
  | nil => exact ⟨[], [], s, P, rfl, List.Sublist.refl _, hI, by simp, by simp⟩
  | cons y ys ih =>
    obtain ⟨hfresh, hnodup⟩ : y.2 ∉ items ys ∧ (items ys).Nodup := List.nodup_cons.mp hnodup
    have hrest : ∀ x ∈ items ys, x ∈ P := fun x hx => hP x (List.mem_cons_of_mem _ hx)
    have hpass : onePass (generatorsOf f (y :: ys)) =
        (f y.2).attempt >>= collect (y.1, f y.2) (onePass (generatorsOf f ys)) := rfl
    rcases hf P y.2 s (hP _ List.mem_cons_self) hI with
      ⟨t, hdone, ht⟩ | ⟨e, t, hput, hstack, ht, hwhy⟩
    · obtain ⟨zs, failures, u, Q, hrun, hsub, hQ, hmem, hblocked⟩ :=
        ih (P := P \ {y.2}) hnodup (fun x hx => ⟨hrest x hx, fun h => hfresh (h ▸ hx)⟩) ht
      refine ⟨zs, failures, u, Q, ?_, hsub.cons y, hQ, fun x => ?_, fun x hx => ?_⟩
      · rw [hpass, bind_of_returned (attempt_ok.mpr hdone)]
        exact hrun
      · have hout : y.2 ∉ items zs := fun h => hfresh ((hsub.map Prod.snd).subset h)
        rw [hmem]
        by_cases hx : x = y.2
        · simp [hx, hout]
        · simp [hx]
      · exact (hblocked x hx).imp_right fun ⟨z, hz, hlt⟩ => ⟨z, hz.1, hlt⟩
    · obtain ⟨zs, failures, u, Q, hrun, hsub, hQ, hmem, hblocked⟩ := ih (P := P) hnodup hrest ht
      refine ⟨y :: zs, e :: failures, u, Q, ?_, hsub.cons_cons y, hQ, fun x => ?_, ?_⟩
      · rw [hpass, bind_of_returned (attempt_error.mpr hput), collect_error, if_pos hstack,
          bind_of_returned hrun]
        rfl
      · rw [hmem]
        by_cases hx : x = y.2
        · simp [hx, hfresh]
        · simp [hx]
      · intro x hx
        rcases List.mem_cons.mp hx with rfl | hx
        · exact hwhy
        · exact hblocked x hx

theorem passes_resolves (hf : Resolves f I rank late)
    (hlate : ∀ x y, late x → rank x ≤ rank y → late y) (n : Nat) {ys : List (Nat × ι)} {s : σ}
    (failures : List Thrown) (hn : ys.length ≤ n) (hnodup : (items ys).Nodup)
    (hI : I {x | x ∈ items ys} s) :
    ∃ zs failures' t, passes n (generatorsOf f ys) failures s =
        (.returned (generatorsOf f zs, failures'), t) ∧ zs.Sublist ys ∧ I {x | x ∈ items zs} t ∧
      ∀ x ∈ items zs, late x := by
  induction n generalizing ys s failures with
  | zero =>
    obtain rfl : ys = [] := List.eq_nil_of_length_eq_zero (Nat.le_zero.mp hn)
    exact ⟨[], failures, s, rfl, List.Sublist.refl _, hI, by simp⟩
  | succ n ih =>
    obtain ⟨zs, new, t, Q, hrun, hsub, hQ, hmem, hblocked⟩ :=
      onePass_resolves hf hnodup (P := {x | x ∈ items ys}) (fun _ hx => hx) hI
    have hzs : Q = {x | x ∈ items zs} := by
      ext x
      rw [hmem]
      exact ⟨fun h => h.2 h.1, fun h => ⟨(hsub.map Prod.snd).subset h, fun _ => h⟩⟩
    rw [hzs] at hQ
    rw [passes, bind_of_returned hrun]
    by_cases hlen : zs.length = ys.length
    · obtain rfl := hsub.eq_of_length hlen
      refine ⟨zs, failures ++ new, t, by simp, List.Sublist.refl _, hQ, fun x hx => ?_⟩
      -- nothing was done: an item of the smallest rank waits for no other one
      by_contra hlt
      obtain ⟨z, hz, hmin⟩ := (measure rank).wf.has_min {x | x ∈ items zs} ⟨x, hx⟩
      rcases hblocked z hz with hz | ⟨w, hw, hwz⟩
      · exact hlt (hlate z x hz (Nat.not_lt.mp (hmin x hx)))
      · exact hmin w hw hwz
    · have hlt : zs.length ≤ n := by
        have hle := hsub.length_le
        omega
      obtain ⟨vs, all, u, hpasses, hvs, hI', hleft⟩ :=
        ih (failures ++ new) hlt (hnodup.sublist (hsub.map Prod.snd)) hQ
      refine ⟨vs, all, u, ?_, hvs.trans hsub, hI', hleft⟩
      simpa [generatorsOf, hlen] using hpasses

-- every item is done, or all that are left are late
theorem lazyLoader_resolves (hf : Resolves f I rank late)
    (hlate : ∀ x y, late x → rank x ≤ rank y → late y) {xs : List ι} {s : σ}
    (hnodup : xs.Nodup) (hI : I {x | x ∈ xs} s) :
    ∃ ys t, ys.Sublist xs ∧ I {x | x ∈ ys} t ∧ (∀ x ∈ ys, late x) ∧
      ((ys = [] ∧ lazyLoader (xs.map f) s = (.returned (), t)) ∨ ys ≠ [] ∧ ∃ n e,
        lazyLoader (xs.map f) s = (.thrown e, t) ∧
          e.generatorsToRunLength = some (n + 1 : Nat)) := by
  have hgs : (List.range (xs.map f).length).zip (xs.map f) =
      generatorsOf f ((List.range xs.length).zip xs) := by
    rw [List.length_map, List.zip_map_right]
    rfl
  have hitems : items ((List.range xs.length).zip xs) = xs := by
    simp [items, List.map_snd_zip]
  obtain ⟨zs, failures, t, hpasses, hsub, ht, hleft⟩ := passes_resolves hf hlate
    (generatorsOf f ((List.range xs.length).zip xs)).length [] (List.length_map _).ge
    (by rwa [hitems]) (by rwa [hitems])
  refine ⟨items zs, t, hitems ▸ hsub.map Prod.snd, ht, hleft, ?_⟩
  unfold lazyLoader
  simp only [hgs]
  rw [bind_of_returned hpasses]
  cases zs with
  | nil => exact .inl ⟨rfl, rfl⟩
  | cons z zs =>
    refine .inr ⟨List.cons_ne_nil _ _, zs.length, _, rfl, ?_⟩
    simp [Thrown.generatorsToRunLength, generatorsOf]

end Resolution

end Iasql
