import Iasql.Attempts

namespace Iasql

open Program Saturation

section Loop

variable {σ : Type}

def loaderTurn (b : List (Generator σ) × List Thrown) :
    Prog σ Thrown (Prog.Turn (List (Generator σ) × List Thrown) Empty) := do
  let (generatorsToRerun, new) ← onePass b.1
  if generatorsToRerun.length = b.1.length then return .leave (b.1, b.2 ++ new)
  else if generatorsToRerun.isEmpty then return .leave ([], b.2 ++ new)
  else return .again (generatorsToRerun, b.2 ++ new)

theorem loaderTurn_nil (failures : List Thrown) (s : σ) :
    loaderTurn ([], failures) s = (.returned (.leave ([], failures)), s) := by
  simp [loaderTurn, onePass]

theorem passes_nil (n : Nat) (failures : List Thrown) (s : σ) :
    passes n [] failures s = (.returned ([], failures), s) := by
  cases n with
  | zero => rfl
  | succ n => simp [passes, onePass]

theorem passes_loop {n fuel : Nat} {gs : List (Generator σ)} (hn : gs.length ≤ n)
    (hfuel : n < fuel) (failures : List Thrown) (s : σ) :
    Prog.doWhile loaderTurn fuel (gs, failures) s =
      (passes n gs failures >>= fun r => pure (.inl r)) s := by
  induction n generalizing gs fuel failures s with
  | zero =>
    obtain rfl := List.length_eq_zero_iff.mp (Nat.le_zero.mp hn)
    obtain ⟨fuel, rfl⟩ := Nat.exists_eq_succ_of_ne_zero (Nat.pos_iff_ne_zero.mp hfuel)
    rw [Prog.doWhile_succ, Prog.bind_of_returned (loaderTurn_nil failures s),
      Prog.bind_of_returned (passes_nil 0 failures s)]
  | succ n ih =>
    obtain ⟨fuel, rfl⟩ := Nat.exists_eq_succ_of_ne_zero (Nat.ne_of_gt (Nat.zero_lt_of_lt hfuel))
    rw [Prog.doWhile_succ, passes, loaderTurn, Prog.bind_assoc_apply, Prog.bind_assoc_apply]
    rcases hs : onePass gs s with ⟨o, t⟩
    cases o with
    | thrown e => rw [Prog.bind_of_thrown hs, Prog.bind_of_thrown hs]
    | diverged => rw [Prog.bind_of_diverged hs, Prog.bind_of_diverged hs]
    | returned r =>
      obtain ⟨rerun, new⟩ := r
      have hsub : rerun.Sublist gs := onePass_sublist gs (fun _ => True) s _ t trivial hs
      rw [Prog.bind_of_returned hs, Prog.bind_of_returned hs]
      by_cases hlen : rerun.length = gs.length
      · simp only [if_pos hlen]
        rfl
      · simp only [if_neg hlen]
        have hlt : rerun.length < gs.length := lt_of_le_of_ne hsub.length_le hlen
        have hih := @ih fuel rerun (by omega) (by omega) (failures ++ new) t
        cases rerun with
        | nil => rw [Prog.bind_of_returned (passes_nil n _ t)]; rfl
        | cons g rest => exact hih

-- the loop as the source has it, given so many turns before it is cut off
def lazyLoaderWithin (fuel : Nat) (promiseGenerators : List (Prog σ Thrown Unit)) :
    Prog σ Thrown Unit := do
  let gs := (List.range promiseGenerators.length).zip promiseGenerators
  match ← Prog.doWhile loaderTurn fuel (gs, []) with
  | .inl (generatorsToRun, failures) =>
    if generatorsToRun.isEmpty then return ()
    else Prog.fail (.depError "Forward progress halted. Some promises never resolved"
      (some (generatorsToRun.map Prod.fst)) (some (failures.map fun f => f.message.getD "")))

theorem lazyLoaderWithin_eq {fuel : Nat} {promiseGenerators : List (Prog σ Thrown Unit)}
    (hfuel : promiseGenerators.length < fuel) (s : σ) :
    lazyLoaderWithin fuel promiseGenerators s = lazyLoader promiseGenerators s := by
  have hlen : ((List.range promiseGenerators.length).zip promiseGenerators).length =
      promiseGenerators.length := by simp
  have hloop := passes_loop (le_refl _) (hlen ▸ hfuel) [] s
  simp only [lazyLoaderWithin, lazyLoader]
  rw [Prog.bind_apply, hloop, Prog.bind_apply, Prog.bind_apply]
  rcases passes _ _ _ s with ⟨o, t⟩
  cases o <;> rfl

end Loop

section Environment

variable {ι : Type} [DecidableEq ι]

-- a generator succeeds exactly when those that succeeded before make it ready
def whenReady (ready : Finset ι →o Finset ι) (reject : ι → History ι → Thrown) (i : ι)
    (h : History ι) : Option Thrown :=
  if i ∈ ready (succeeded h) then none else some (reject i h)

variable {ready : Finset ι →o Finset ι} {reject : ι → History ι → Thrown} {xs : List ι}

theorem grown_call {h : History ι} (hg : Grown ready (succeeded h)) (x : ι) :
    Grown ready (succeeded (h ++ [(x, whenReady ready reject x h)])) := by
  unfold whenReady
  split
  · next hx =>
    have hsucc : succeeded (h ++ [(x, none)]) = insert x (succeeded h) := by
      simp
    rw [hsucc]
    exact hg.insert hx
  · simpa using hg

theorem grown_pass {ys : List ι} {h : History ι} (hg : Grown ready (succeeded h)) :
    Grown ready (succeeded (h ++ pass (whenReady ready reject) ys h)) := by
  induction ys generalizing h with
  | nil => simpa [pass] using hg
  | cons y ys ih =>
    have hrest := ih (@grown_call _ _ _ reject _ hg y)
    rwa [List.append_assoc] at hrest

theorem grown_reached {p : List ι × History ι}
    (hp : Relation.ReflTransGen (Again (whenReady ready reject)) (xs, []) p) :
    Grown ready (succeeded p.2) := by
  induction hp with
  | refl => exact .empty
  | tail _ hagain ih =>
    obtain ⟨-, rfl⟩ := hagain
    exact grown_pass ih

theorem not_ready_of_stopped {ys : List ι} {h : History ι}
    (hstop : rejected (pass (whenReady ready reject) ys h) = ys) :
    ∀ y ∈ ys, y ∉ ready (succeeded h) := by
  induction ys generalizing h with
  | nil => simp
  | cons y ys ih =>
    rw [pass] at hstop
    cases hy : whenReady ready reject y h with
    | none =>
      have hsub := @rejected_pass_sublist _ (whenReady ready reject) ys (h ++ [(y, none)])
      rw [hy, rejected_cons_none] at hstop
      rw [hstop] at hsub
      have hle := hsub.length_le
      exact absurd hle (by simp)
    | some e =>
      rw [hy, rejected_cons_some] at hstop
      have hrest := ih (List.cons.inj hstop).2
      have hnot : y ∉ ready (succeeded h) := by
        intro hmem
        rw [whenReady, if_pos hmem] at hy
        cases hy
      intro z hz
      rcases List.mem_cons.mp hz with rfl | hz
      · exact hnot
      · simpa using hrest z hz

theorem succeeded_of_stopped {answer : ι → History ι → Option Thrown} {ys : List ι}
    {h : History ι} (hn : ys.Nodup) (hstop : rejected (pass answer ys h) = ys) :
    succeeded (pass answer ys h) = ∅ := by
  refine Finset.eq_empty_of_forall_notMem fun i hi => ?_
  have hys := called_of_succeeded hi
  rw [pass_called, ← hstop, rejected_pass hn] at hys
  simpa [hi] using (List.mem_filter.mp hys).2

theorem Ended.isLeast (hn : xs.Nodup) (hall : ∀ i, i ∈ xs) {rest : List ι} {h : History ι}
    (he : Ended (whenReady ready reject) xs rest h) :
    IsLeast {S | ready S = S} (succeeded h) := by
  have hu := he.underway hn
  obtain ⟨k, hreach, hstop, rfl⟩ := he.reached
  have hg := @grown_pass _ _ _ reject rest _ (grown_reached hreach)
  refine hg.isLeast fun i hi => ?_
  by_contra hout
  have hrest : i ∈ rest := by
    rw [hu.left]
    exact List.mem_filter.mpr ⟨hall i, by simpa using hout⟩
  have hnone := succeeded_of_stopped (hu.left ▸ hn.filter _) hstop
  refine not_ready_of_stopped hstop i hrest ?_
  simpa [hnone] using hi

end Environment

section Orders

variable {n : Nat}

def loadInOrder (ready : Finset (Fin n) →o Finset (Fin n))
    (reject : Fin n → History (Fin n) → Thrown) (order : Equiv.Perm (Fin n)) :
    Prog (History (Fin n)) Thrown Unit :=
  lazyLoader ((List.ofFn order).map (generator (whenReady ready reject)))

-- what the loader is to do with the generators in this order
def LoadsLeast (ready : Finset (Fin n) →o Finset (Fin n))
    (reject : Fin n → History (Fin n) → Thrown) (order : Equiv.Perm (Fin n)) : Prop :=
  ∃ h : History (Fin n),
    (∀ fuel, n < fuel →
      lazyLoaderWithin fuel ((List.ofFn order).map (generator (whenReady ready reject))) [] =
        loadInOrder ready reject order []) ∧
    NoRerun h ∧ IsLeast {S | ready S = S} (succeeded h) ∧
    ((loadInOrder ready reject order [] = (.returned (), h) ∧ succeeded h = Finset.univ) ∨
      ∃ message failures, succeeded h ≠ Finset.univ ∧
        loadInOrder ready reject order [] = (.thrown (.depError message
          (some ((remaining (List.ofFn order) h).map fun i => (order.symm i).val)) failures), h))

theorem nodup_order (order : Equiv.Perm (Fin n)) : (List.ofFn order).Nodup :=
  List.nodup_ofFn.mpr order.injective

theorem mem_order (order : Equiv.Perm (Fin n)) (i : Fin n) : i ∈ List.ofFn order :=
  (List.mem_ofFn' _ _).mpr ⟨order.symm i, by simp⟩

theorem idxOf_order (order : Equiv.Perm (Fin n)) (i : Fin n) :
    (List.ofFn order).idxOf i = order.symm i := by
  have hlt : (order.symm i).val < (List.ofFn order).length := by simp
  have hget : (List.ofFn order)[(order.symm i).val] = i := by simp
  have hidx := (nodup_order order).idxOf_getElem _ hlt
  rwa [hget] at hidx

theorem loadsLeast_iff (ready : Finset (Fin n) →o Finset (Fin n))
    (reject : Fin n → History (Fin n) → Thrown) (order : Equiv.Perm (Fin n)) :
    LoadsLeast ready reject order ↔
      StacksCarried (whenReady ready reject) (List.ofFn order) := by
  constructor
  · rintro ⟨h, -, -, -, hrun⟩
    by_contra hc
    obtain ⟨t, ht⟩ := lazyLoader_escapes (nodup_order order) hc
    rcases hrun with ⟨heq, -⟩ | ⟨_, _, -, heq⟩
    · cases heq.symm.trans ht
    · cases heq.symm.trans ht
  · intro hc
    obtain ⟨rest, h, failures, he, hrun⟩ := lazyLoader_carried (nodup_order order) hc
    have hleast := he.isLeast (nodup_order order) (mem_order order)
    obtain ⟨rfl, honce⟩ := he.underway (nodup_order order)
    refine ⟨h, fun fuel hfuel => lazyLoaderWithin_eq (by simpa using hfuel) [], honce, hleast, ?_⟩
    by_cases hrest : remaining (List.ofFn order) h = []
    · rw [if_pos hrest] at hrun
      refine .inl ⟨hrun, Finset.eq_univ_of_forall fun i => ?_⟩
      by_contra hi
      have hmem : i ∈ remaining (List.ofFn order) h :=
        List.mem_filter.mpr ⟨mem_order order i, by simpa using hi⟩
      rw [hrest] at hmem
      cases hmem
    · rw [if_neg hrest] at hrun
      simp only [idxOf_order] at hrun
      refine .inr ⟨_, _, fun huniv => hrest ?_, hrun⟩
      refine List.filter_eq_nil_iff.mpr fun i _ => ?_
      simp [huniv]

-- the first waits for the second
def secondFirst : Finset (Fin 2) →o Finset (Fin 2) where
  toFun S := if 1 ∈ S then {0, 1} else {1}
  monotone' := by
    intro S T hST
    by_cases hS : 1 ∈ S
    · simp [hS, hST hS]
    · simp only [hS, if_false]
      split <;> decide

theorem order_decides :
    ¬ LoadsLeast secondFirst (fun _ _ => .nullish) (Equiv.refl (Fin 2)) ∧
      (loadInOrder secondFirst (fun _ _ => .nullish) (Equiv.refl (Fin 2)) []).1 =
        .thrown (.error "TypeError") ∧
      (loadInOrder secondFirst (fun _ _ => .nullish) (Equiv.swap 0 1) []).1 = .returned () := by
  have hrun : (loadInOrder secondFirst (fun _ _ => .nullish) (Equiv.refl (Fin 2)) []).1 =
      .thrown (.error "TypeError") := by decide
  refine ⟨?_, hrun, by decide⟩
  rintro ⟨h, -, -, -, ⟨heq, -⟩ | ⟨_, _, -, heq⟩⟩
  · rw [heq] at hrun
    cases hrun
  · rw [heq] at hrun
    cases hrun

end Orders

end Iasql
