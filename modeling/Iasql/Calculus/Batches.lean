import Iasql.Calculus.Program

namespace Program

namespace Prog

variable {σ ε α γ ρ κ : Type}

-- a loop whose body goes on to the next element or returns from the function around it
def forOf (body : γ → Prog σ ε (Option ρ)) : List γ → Prog σ ε (Option ρ)
  | [] => pure none
  | x :: xs => do
    match ← body x with
    | none => forOf body xs
    | some r => pure (some r)

variable {body : γ → Prog σ ε (Option ρ)} {x : γ} {xs : List γ} {s t : σ}

theorem forOf_cons (body : γ → Prog σ ε (Option ρ)) (x : γ) (xs : List γ) :
    forOf body (x :: xs) = body x >>= fun r =>
      match r with
      | none => forOf body xs
      | some r => pure (some r) := by
  rw [forOf]

theorem forOf_next (h : body x s = (.returned none, t)) : forOf body (x :: xs) s = forOf body xs t := by
  rw [forOf_cons, bind_of_returned h]

theorem forOf_leave {r : ρ} (h : body x s = (.returned (some r), t)) :
    forOf body (x :: xs) s = (.returned (some r), t) := by
  rw [forOf_cons, bind_of_returned h]
  rfl

theorem forOf_throw {e : ε} (h : body x s = (.thrown e, t)) :
    forOf body (x :: xs) s = (.thrown e, t) := by
  rw [forOf_cons, bind_of_thrown h]

section Issued

variable {τ : Type}

-- what the turns of a loop add to a log, and whether they go on, as far as a view of the state tells
structure Turns (I : σ → Prop) (log : σ → List κ) (view : σ → τ) (body : γ → Prog σ ε (Option ρ))
    (issue : γ → List κ) (goes : τ → γ → Bool) (after : τ → γ → τ) : Prop where
  kept : ∀ x s, I s → I (body x s).2
  logged : ∀ x s, I s → log (body x s).2 = log s ++ issue x
  viewed : ∀ x s, I s → view (body x s).2 = after (view s) x
  goes_iff : ∀ x s, I s → (goes (view s) x = true ↔ (body x s).1 = .returned none)

variable {I : σ → Prop} {log : σ → List κ} {view : σ → τ} {issue : γ → List κ} {goes : τ → γ → Bool}
  {after : τ → γ → τ}

def reached (issue : γ → List κ) (goes : τ → γ → Bool) (after : τ → γ → τ) : τ → List γ → List κ
  | _, [] => []
  | v, x :: xs => issue x ++ if goes v x then reached issue goes after (after v x) xs else []

-- nothing is to be issued behind an element at which the loop ends
def Unbroken (issue : γ → List κ) (goes : τ → γ → Bool) (after : τ → γ → τ) : τ → List γ → Prop
  | _, [] => True
  | v, x :: xs =>
    if goes v x then Unbroken issue goes after (after v x) xs else ∀ y ∈ xs, issue y = []

instance decidableUnbroken [DecidableEq κ] (issue : γ → List κ) (goes : τ → γ → Bool)
    (after : τ → γ → τ) : ∀ v xs, Decidable (Unbroken issue goes after v xs)
  | _, [] => isTrue trivial
  | v, x :: xs =>
    have : Decidable (Unbroken issue goes after (after v x) xs) := decidableUnbroken _ _ _ _ xs
    inferInstanceAs (Decidable (if goes v x then _ else ∀ y ∈ xs, issue y = []))

theorem Turns.log_forOf (h : Turns I log view body issue goes after) (xs : List γ) (hs : I s) :
    log (forOf body xs s).2 = log s ++ reached issue goes after (view s) xs := by
  induction xs generalizing s with
  | nil => exact (List.append_nil _).symm
  | cons x xs ih =>
    have hlog := h.logged x s hs
    have hview := h.viewed x s hs
    rw [reached]
    cases hgoes : goes (view s) x with
    | true =>
      have hnext : body x s = (.returned none, (body x s).2) := run_eq ((h.goes_iff x s hs).mp hgoes)
      rw [forOf_next hnext, ih (h.kept x s hs), hlog, hview, List.append_assoc, if_pos rfl]
    | false =>
      have hstop : ¬ (body x s).1 = .returned none := fun hnone => by
        rw [(h.goes_iff x s hs).mpr hnone] at hgoes
        cases hgoes
      rw [if_neg Bool.false_ne_true, List.append_nil, ← hlog]
      rcases hrun : body x s with ⟨o, t⟩
      rw [hrun] at hstop
      cases o with
      | returned r =>
        cases r with
        | none => exact absurd rfl hstop
        | some r => rw [forOf_leave hrun]
      | thrown e => rw [forOf_throw hrun]
      | diverged => rw [forOf_cons, bind_of_diverged hrun]

theorem reached_eq_flatMap_iff (v : τ) (xs : List γ) :
    reached issue goes after v xs = xs.flatMap issue ↔ Unbroken issue goes after v xs := by
  induction xs generalizing v with
  | nil => exact iff_of_true rfl trivial
  | cons x xs ih =>
    rw [reached, Unbroken, List.flatMap_cons, List.append_cancel_left_eq]
    split
    · exact ih (after v x)
    · rw [eq_comm, List.flatMap_eq_nil_iff]

-- where the view never changes, the order of the elements alone decides
theorem unbroken_iff_pairwise {v : τ} (hafter : ∀ x, after v x = v) (xs : List γ) :
    Unbroken issue goes after v xs ↔ xs.Pairwise fun x y => goes v x = false → issue y = [] := by
  induction xs with
  | nil => exact iff_of_true trivial List.Pairwise.nil
  | cons x xs ih =>
    rw [Unbroken, List.pairwise_cons, hafter]
    cases hgoes : goes v x with
    | true =>
      rw [if_pos rfl, ih]
      exact (and_iff_right fun _ _ h => by cases h).symm
    | false =>
      rw [if_neg Bool.false_ne_true]
      constructor
      · intro h
        exact ⟨fun y hy _ => h y hy,
          List.pairwise_of_forall_mem_list fun _ _ y hy _ => h y hy⟩
      · exact fun h y hy => h.1 y hy rfl

-- a batch adds to the log what its elements add one by one
def Batched (log : σ → List κ) (run : List γ → Prog σ ε α) (issue : γ → List κ) (xs : List γ) (s : σ) :
    Prop :=
  log (run xs s).2 = log s ++ xs.flatMap issue ∧
    ∀ x ∈ xs, log (run [x] s).2 = log s ++ issue x

theorem Turns.batched_iff {run : List γ → Prog σ ε α} (h : Turns I log view body issue goes after)
    (hrun : ∀ xs, log (run xs s).2 = log (forOf body xs s).2) (xs : List γ) (hs : I s) :
    Batched log run issue xs s ↔ Unbroken issue goes after (view s) xs := by
  have hbatch : log (run xs s).2 = log s ++ xs.flatMap issue ↔
      Unbroken issue goes after (view s) xs := by
    rw [hrun, h.log_forOf xs hs, List.append_cancel_left_eq]
    exact reached_eq_flatMap_iff (view s) xs
  have hone : ∀ x ∈ xs, log (run [x] s).2 = log s ++ issue x := by
    intro x _
    rw [hrun, h.log_forOf [x] hs, reached, reached, ite_self, List.append_nil]
  exact (and_iff_left hone).trans hbatch

end Issued

section Adding

variable {log : σ → List κ} {p q : Prog σ ε α} {c d : List κ}

-- a program logs at most these, in their order
def Adds (log : σ → List κ) (p : Prog σ ε α) (c : List κ) : Prop :=
  ∀ s, ∃ part, log (p s).2 = log s ++ part ∧ part.Sublist c

theorem adds_of_kept (h : ∀ s, log (p s).2 = log s) (c : List κ) : Adds log p c := fun s =>
  ⟨[], by rw [h, List.append_nil], List.nil_sublist c⟩

theorem Adds.bind {β : Type} {k : α → Prog σ ε β} (hp : Adds log p c) (hk : ∀ a, Adds log (k a) d) :
    Adds log (p >>= k) (c ++ d) := by
  intro s
  obtain ⟨part, hlog, hsub⟩ := hp s
  have hstop : part.Sublist (c ++ d) := hsub.trans (List.sublist_append_left _ _)
  rw [bind_apply]
  rcases hrun : p s with ⟨o, t⟩
  rw [hrun] at hlog
  cases o with
  | returned a =>
    obtain ⟨rest, hrest, hsub'⟩ := hk a t
    exact ⟨part ++ rest, by rw [← List.append_assoc, ← hlog, ← hrest], hsub.append hsub'⟩
  | thrown e => exact ⟨part, hlog, hstop⟩
  | diverged => exact ⟨part, hlog, hstop⟩

theorem Adds.attempt (h : Adds log p c) : Adds log (attempt p) c := by
  intro s
  obtain ⟨part, hlog, hsub⟩ := h s
  refine ⟨part, ?_, hsub⟩
  rw [← hlog, Prog.attempt]
  rcases p s with ⟨o, t⟩
  cases o <;> rfl

theorem adds_each {f : γ → Prog σ ε Unit} {g : γ → List κ} {xs : List γ}
    (h : ∀ x ∈ xs, Adds log (f x) (g x)) : Adds log (each f xs) (xs.flatMap g) := by
  induction xs with
  | nil => exact adds_of_kept (fun _ => rfl) _
  | cons x xs ih =>
    exact (h x List.mem_cons_self).bind fun _ => ih fun y hy => h y (List.mem_cons_of_mem _ hy)

end Adding

section Sparing

-- nothing is logged for a protected element, and no turn takes the protection away
structure SparesEach (log : σ → List κ) (body : γ → Prog σ ε (Option ρ)) (issue : γ → List κ)
    (isProtected : σ → γ → Bool) : Prop where
  logged : ∀ x s, ∃ part, log (body x s).2 = log s ++ part ∧
    part.Sublist (if isProtected s x then [] else issue x)
  kept : ∀ x s, isProtected (body x s).2 = isProtected s

variable {log : σ → List κ} {issue : γ → List κ} {isProtected : σ → γ → Bool}

theorem forOf_apply (body : γ → Prog σ ε (Option ρ)) (x : γ) (xs : List γ) (s : σ) :
    forOf body (x :: xs) s = forOf body xs (body x s).2 ∨
      (forOf body (x :: xs) s).2 = (body x s).2 := by
  rcases hrun : body x s with ⟨o, t⟩
  cases o with
  | returned r =>
    cases r with
    | none => exact .inl (forOf_next hrun)
    | some r => exact .inr (congrArg Prod.snd (forOf_leave hrun))
  | thrown e => exact .inr (congrArg Prod.snd (forOf_throw hrun))
  | diverged => exact .inr (by rw [forOf_cons, bind_of_diverged hrun])

theorem SparesEach.forOf (h : SparesEach log body issue isProtected) (xs : List γ) (s : σ) :
    ∃ part, log (forOf body xs s).2 = log s ++ part ∧
      part.Sublist ((xs.filter fun x => !isProtected s x).flatMap issue) := by
  induction xs generalizing s with
  | nil => exact ⟨[], (List.append_nil _).symm, List.Sublist.refl _⟩
  | cons x xs ih =>
    obtain ⟨part, hlog, hsub⟩ := h.logged x s
    have hsplit : ((x :: xs).filter fun y => !isProtected s y).flatMap issue =
        (if isProtected s x then [] else issue x) ++
          (xs.filter fun y => !isProtected s y).flatMap issue := by
      cases hx : isProtected s x <;> simp [hx]
    rw [hsplit]
    rcases forOf_apply body x xs s with hnext | hend
    · obtain ⟨rest, hrest, hsub'⟩ := ih (body x s).2
      rw [h.kept] at hsub'
      refine ⟨part ++ rest, ?_, hsub.append hsub'⟩
      rw [hnext, hrest, hlog, List.append_assoc]
    · refine ⟨part, by rw [hend, hlog], ?_⟩
      exact hsub.trans (List.sublist_append_left _ _)

-- the calls of a batch are those of unprotected elements, and every turn for a protected one leaves
-- it as it should be
def Sparing (log : σ → List κ) (run : List γ → Prog σ ε α) (body : γ → Prog σ ε (Option ρ))
    (issue : γ → List κ) (isProtected : σ → γ → Bool) (restored : γ → σ → σ → Prop) (xs : List γ)
    (s : σ) : Prop :=
  (∃ part, log (run xs s).2 = log s ++ part ∧
    part.Sublist ((xs.filter fun x => !isProtected s x).flatMap issue)) ∧
    ∀ x ∈ xs, ∀ t, isProtected t x = true → restored x t (body x t).2

theorem SparesEach.sparing {run : List γ → Prog σ ε α} {restored : γ → σ → σ → Prop}
    (h : SparesEach log body issue isProtected)
    (hrun : ∀ xs s, log (run xs s).2 = log (Prog.forOf body xs s).2)
    (hrestored : ∀ x t, isProtected t x = true → restored x t (body x t).2) (xs : List γ) (s : σ) :
    Sparing log run body issue isProtected restored xs s := by
  refine ⟨?_, fun x _ t hx => hrestored x t hx⟩
  rw [hrun]
  exact h.forOf xs s

end Sparing

end Prog

end Program
