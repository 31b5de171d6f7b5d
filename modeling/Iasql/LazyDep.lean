import Iasql.Calculus.Program

namespace Iasql

open Program

inductive Thrown where
  | nullish
  | primitive (text : String)
  | error (message : String)
  | depError (message : String) (generatorsToRun : Option (List Nat))
      (failures : Option (List String))
deriving DecidableEq

namespace Thrown

def message : Thrown → Option String
  | .nullish | .primitive _ => none
  | .error m | .depError m _ _ => some m

def truthy : Thrown → Bool
  | .nullish => false
  | .primitive s => s != ""
  | _ => true

def isNullish : Thrown → Bool
  | .nullish => true
  | _ => false

-- reading the stack of a nullish value, or setting one on a primitive, is a TypeError
def carriesStack : Thrown → Bool
  | .nullish | .primitive _ => false
  | _ => true

def generatorsToRunLength : Thrown → Option Int
  | .depError _ (some gs) _ => some gs.length
  | _ => none

def withMessage (message : String) : Thrown → Thrown
  | .error _ => .error message
  | .depError _ gs fs => .depError message gs fs
  | _ => .error "TypeError"

end Thrown

def mergeMessages (messages : List String) : String :=
  "\n".intercalate (messages.eraseDups.filter (· != ""))

def mergeErrorMessages (es : List Thrown) : String := mergeMessages (es.filterMap Thrown.message)

def logErrSentry : Thrown → String
  | .depError _ _ (some failures) => mergeMessages failures
  | e => e.message.getD ""

abbrev Generator (σ : Type) := Nat × Prog σ Thrown Unit

section LazyLoader

variable {σ : Type}

def collect (g : Generator σ) (rest : Prog σ Thrown (List (Generator σ) × List Thrown)) :
    Except Thrown Unit → Prog σ Thrown (List (Generator σ) × List Thrown)
  | .ok _ => rest
  | .error e =>
    if e.carriesStack then do
      let (generatorsToRerun, failures) ← rest
      return (g :: generatorsToRerun, e :: failures)
    else Prog.fail (.error "TypeError")

def onePass : List (Generator σ) → Prog σ Thrown (List (Generator σ) × List Thrown)
  | [] => pure ([], [])
  | g :: gs => g.2.attempt >>= collect g (onePass gs)

-- the fuel is the number of generators: a pass that makes no progress ends the loop
def passes : Nat → List (Generator σ) → List Thrown →
    Prog σ Thrown (List (Generator σ) × List Thrown)
  | 0, gs, failures => pure (gs, failures)
  | n + 1, gs, failures => do
    let (generatorsToRerun, new) ← onePass gs
    if generatorsToRerun.length = gs.length then return (gs, failures ++ new)
    else passes n generatorsToRerun (failures ++ new)

def lazyLoader (promiseGenerators : List (Prog σ Thrown Unit)) : Prog σ Thrown Unit := do
  let gs := (List.range promiseGenerators.length).zip promiseGenerators
  let (generatorsToRun, failures) ← passes gs.length gs []
  if generatorsToRun.isEmpty then return ()
  else Prog.fail (.depError "Forward progress halted. Some promises never resolved"
    (some (generatorsToRun.map Prod.fst)) (some (failures.map fun f => f.message.getD "")))

variable {F : Frame σ}

theorem collect_error (g : Generator σ)
    (rest : Prog σ Thrown (List (Generator σ) × List Thrown)) (e : Thrown) :
    collect g rest (.error e) = if e.carriesStack then do
        let (generatorsToRerun, failures) ← rest
        return (g :: generatorsToRerun, e :: failures)
      else Prog.fail (.error "TypeError") := rfl

theorem keeps_collect {g : Generator σ} {rest : Prog σ Thrown (List (Generator σ) × List Thrown)}
    (h : F.Keeps rest) (o : Except Thrown Unit) : F.Keeps (collect g rest o) := by
  rcases o with e | _
  · refine Frame.keeps_ite (Frame.keeps_bind h ?_) (Frame.keeps_fail _)
    rintro ⟨rerun, failures⟩
    exact Frame.keeps_pure _
  · exact h

theorem keeps_onePass {gs : List (Generator σ)} (h : ∀ g ∈ gs, F.Keeps g.2) :
    F.Keeps (onePass gs) := by
  induction gs with
  | nil => exact Frame.keeps_pure _
  | cons g gs ih =>
    exact Frame.keeps_bind (Frame.keeps_attempt (h g (by simp)))
      (keeps_collect (ih fun x hx => h x (by simp [hx])))

theorem onePass_sublist (gs : List (Generator σ)) (P : σ → Prop) :
    Returns P (onePass gs) fun r _ => r.1.Sublist gs := by
  induction gs generalizing P with
  | nil => exact returns_pure fun _ _ => List.Sublist.refl _
  | cons g gs ih =>
    refine returns_bind (Q := fun _ _ => True) (fun _ _ _ _ _ => trivial) ?_
    rintro (e | _)
    · rw [collect_error]
      split
      · refine returns_bind (ih _) ?_
        rintro ⟨rerun, failures⟩
        exact returns_pure fun _ h => List.Sublist.cons_cons g h
      · exact returns_fail _
    · exact (ih _).mono (fun _ h => h) fun _ _ h => List.Sublist.cons g h

theorem passes_rest {gs : List (Generator σ)} (h : ∀ g ∈ gs, F.Keeps g.2)
    {s t : σ} {r : List (Generator σ) × List Thrown} (hr : onePass gs s = (.returned r, t)) :
    ∀ g ∈ r.1, F.Keeps g.2 := fun g hg =>
  h g ((onePass_sublist gs (fun _ => True) s r t trivial hr).subset hg)

theorem keeps_passes {gs : List (Generator σ)} (h : ∀ g ∈ gs, F.Keeps g.2) (n : Nat)
    (failures : List Thrown) : F.Keeps (passes n gs failures) := by
  induction n generalizing gs failures with
  | zero => exact Frame.keeps_pure _
  | succ n ih =>
    intro s
    have h1 := keeps_onePass h s
    rw [passes, Prog.bind_apply]
    match hs : onePass gs s with
    | (.returned (rerun, new), t) =>
      rw [hs] at h1
      simp only
      split
      · exact h1
      · exact F.trans h1 (ih (passes_rest h hs) _ t)
    | (.thrown e, t) => rw [hs] at h1; exact h1
    | (.diverged, t) => rw [hs] at h1; exact h1

theorem keeps_lazyLoader {gs : List (Prog σ Thrown Unit)} (h : ∀ g ∈ gs, F.Keeps g) :
    F.Keeps (lazyLoader gs) := by
  refine Frame.keeps_bind (keeps_passes ?_ _ _) ?_
  · rintro ⟨i, g⟩ hg
    exact h g (List.of_mem_zip hg).2
  · rintro ⟨rest, failures⟩
    exact Frame.keeps_ite (Frame.keeps_pure _) (Frame.keeps_fail _)

section Done

variable {Done : Generator σ → σ → Prop} {s₀ : σ}

theorem onePass_done (hstable : ∀ g s t, F.rel s t → Done g s → Done g t)
    {gs : List (Generator σ)} (hk : ∀ g ∈ gs, F.Keeps g.2)
    (hd : ∀ g ∈ gs, Returns (F.rel s₀) g.2 fun _ s => Done g s) :
    Returns (F.rel s₀) (onePass gs) fun r s =>
      F.rel s₀ s ∧ r.1 ⊆ gs ∧ ∀ g ∈ gs, g ∈ r.1 ∨ Done g s := by
  induction gs with
  | nil => exact returns_pure fun s hs => ⟨hs, by simp, by simp⟩
  | cons g gs ih =>
    have hk' : ∀ x ∈ gs, F.Keeps x.2 := fun x hx => hk x (by simp [hx])
    have ih' := ih hk' fun x hx => hd x (by simp [hx])
    intro s r t hs heq
    obtain ⟨o, u, hu, hrest⟩ := Prog.bind_returned_inv heq
    have hsu : F.rel s₀ u := by
      have := Frame.keeps_attempt (hk g (by simp)) s
      rw [hu] at this
      exact F.trans hs this
    cases o with
    | error e =>
      rw [collect_error] at hrest
      split at hrest
      · obtain ⟨⟨rerun, failures⟩, v, hv, heq'⟩ := Prog.bind_returned_inv hrest
        cases heq'
        obtain ⟨hrel, hsub, hdone⟩ := ih' u _ _ hsu hv
        refine ⟨hrel, List.cons_subset_cons g hsub, ?_⟩
        intro x hx
        rcases List.mem_cons.mp hx with rfl | hx
        · exact .inl (by simp)
        · exact (hdone x hx).imp_left fun h => by simp [h]
      · cases hrest
    | ok a =>
      have hg : Done g u := by
        refine hd g (by simp) s a u hs ?_
        unfold Prog.attempt at hu
        match hgs : g.2 s with
        | (.returned _, _) => rw [hgs] at hu; cases hu; rfl
        | (.thrown _, _) => rw [hgs] at hu; cases hu
        | (.diverged, _) => rw [hgs] at hu; cases hu
      have hut : F.rel u t := by
        have := keeps_onePass hk' u
        change onePass gs u = _ at hrest
        rw [hrest] at this
        exact this
      obtain ⟨hrel, hsub, hdone⟩ := ih' u _ _ hsu hrest
      refine ⟨hrel, fun x hx => by simp [hsub hx], ?_⟩
      intro x hx
      rcases List.mem_cons.mp hx with rfl | hx
      · exact .inr (hstable _ _ _ hut hg)
      · exact hdone x hx

theorem passes_done (hstable : ∀ g s t, F.rel s t → Done g s → Done g t)
    {all : List (Generator σ)} (hk : ∀ g ∈ all, F.Keeps g.2)
    (hd : ∀ g ∈ all, Returns (F.rel s₀) g.2 fun _ s => Done g s) (n : Nat)
    {gs : List (Generator σ)} (hgs : gs ⊆ all) (failures : List Thrown) :
    Returns (fun s => F.rel s₀ s ∧ ∀ g ∈ all, g ∈ gs ∨ Done g s) (passes n gs failures)
      fun r s => F.rel s₀ s ∧ ∀ g ∈ all, g ∈ r.1 ∨ Done g s := by
  induction n generalizing gs failures with
  | zero => exact returns_pure fun s hs => hs
  | succ n ih =>
    intro s r t hs heq
    obtain ⟨⟨rerun, new⟩, u, hu, hrest⟩ := Prog.bind_returned_inv heq
    have hk' : ∀ g ∈ gs, F.Keeps g.2 := fun g hg => hk g (hgs hg)
    obtain ⟨hrel, hsub, hdone⟩ :=
      onePass_done hstable hk' (fun g hg => hd g (hgs hg)) s _ _ hs.1 hu
    have hsu : F.rel s u := by
      have := keeps_onePass hk' s
      rwa [hu] at this
    have hleft : ∀ g ∈ all, g ∈ rerun ∨ Done g u := fun g hg =>
      (hs.2 g hg).elim (hdone g) fun h => .inr (hstable _ _ _ hsu h)
    change (if rerun.length = gs.length then _ else _ : Prog σ Thrown _) u = _ at hrest
    split at hrest
    · next hlen =>
      cases hrest
      refine ⟨hrel, fun g hg => (hleft g hg).imp_left fun h => hsub h⟩
    · exact ih (fun g hg => hgs (hsub hg)) _ u r t ⟨hrel, hleft⟩ hrest

end Done

theorem lazyLoader_done {ι : Type} {D : ι → σ → Prop} {s₀ : σ}
    (hstable : ∀ x s t, F.rel s t → D x s → D x t) {f : ι → Prog σ Thrown Unit} {xs : List ι}
    (hk : ∀ x ∈ xs, F.Keeps (f x)) (hd : ∀ x ∈ xs, Returns (F.rel s₀) (f x) fun _ s => D x s) :
    Returns (F.rel s₀) (lazyLoader (xs.map f)) fun _ s => F.rel s₀ s ∧ ∀ x ∈ xs, D x s := by
  have hmem : ∀ g ∈ (List.range (xs.map f).length).zip (xs.map f),
      ∃ x ∈ xs, xs[g.1]? = some x ∧ g.2 = f x := by
    rintro ⟨i, g⟩ hg
    obtain ⟨j, hj, hij⟩ := List.mem_iff_getElem.mp hg
    simp only [List.getElem_zip, List.getElem_range, List.getElem_map, Prod.mk.injEq] at hij
    have hlt : j < xs.length := by simp at hj; omega
    obtain ⟨rfl, rfl⟩ := hij
    exact ⟨xs[j], by simp, by simp [hlt], rfl⟩
  let Done (g : Generator σ) (s : σ) : Prop := ∀ x, xs[g.1]? = some x → D x s
  have hdone : ∀ g s t, F.rel s t → Done g s → Done g t :=
    fun g s t hst h x hx => hstable x s t hst (h x hx)
  refine returns_bind (passes_done hdone ?_ ?_ _ (fun _ h => h) []
    |>.mono (fun s hs => ⟨hs, fun g hg => .inl hg⟩) fun _ _ h => h) ?_
  · intro g hg
    obtain ⟨x, hx, -, hgx⟩ := hmem g hg
    rw [hgx]
    exact hk x hx
  · intro g hg s a t hs heq x hx
    obtain ⟨y, hy, hgy, hf⟩ := hmem g hg
    obtain rfl : y = x := Option.some.inj (hgy.symm.trans hx)
    exact hd y hy s a t hs (hf ▸ heq)
  · rintro ⟨rest, failures⟩ s a t ⟨hrel, hdone⟩ heq
    change (if rest.isEmpty then _ else _ : Prog σ Thrown _) s = _ at heq
    split at heq
    · next hempty =>
      cases heq
      refine ⟨hrel, fun x hx => ?_⟩
      obtain ⟨i, hi, hix⟩ := List.mem_iff_getElem.mp hx
      have hg : (i, f x) ∈ (List.range (xs.map f).length).zip (xs.map f) := by
        refine List.mem_iff_getElem.mpr ⟨i, by simpa using hi, ?_⟩
        simp [hix]
      rcases hdone _ hg with hrest | hD
      · rw [List.isEmpty_iff.mp hempty] at hrest
        cases hrest
      · exact hD x (by simp [hi, hix])
    · cases heq

end LazyLoader

end Iasql
