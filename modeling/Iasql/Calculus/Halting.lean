import Iasql.Calculus.Program

namespace Program

namespace Prog

variable {σ τ ε α β γ : Type}

def Halts (p : Prog σ ε α) : Prop := ∀ s, (p s).1 ≠ .diverged

section Halting

theorem halts_pure (a : α) : Halts (pure a : Prog σ ε α) := fun _ h => by cases h

theorem halts_fail (e : ε) : Halts (Prog.fail e : Prog σ ε α) := fun _ h => by cases h

theorem halts_reads (f : σ → α) : Halts (Prog.reads f : Prog σ ε α) := fun _ h => by cases h

theorem halts_writes (f : σ → σ) : Halts (Prog.writes f : Prog σ ε Unit) := fun _ h => by cases h

theorem halts_bind {p : Prog σ ε α} {k : α → Prog σ ε β} (hp : Halts p) (hk : ∀ a, Halts (k a)) :
    Halts (p >>= k) := by
  intro s h
  rcases hs : p s with ⟨o, t⟩
  cases o with
  | returned a =>
    rw [bind_of_returned hs] at h
    exact hk a t h
  | thrown e =>
    rw [bind_of_thrown hs] at h
    cases h
  | diverged => exact hp s (by rw [hs])

theorem bind_diverges_iff {p : Prog σ ε α} {k : α → Prog σ ε β} (hk : ∀ a, Halts (k a)) {s : σ} :
    ((p >>= k) s).1 = .diverged ↔ (p s).1 = .diverged := by
  rcases hs : p s with ⟨o, t⟩
  cases o with
  | returned a =>
    rw [bind_of_returned hs]
    exact iff_of_false (hk a t) fun h => by cases h
  | thrown e =>
    rw [bind_of_thrown hs]
    exact iff_of_false (fun h => by cases h) fun h => by cases h
  | diverged =>
    rw [bind_of_diverged hs]
    exact iff_of_true rfl rfl

theorem halts_attempt {p : Prog σ ε α} (hp : Halts p) : Halts p.attempt := by
  intro s h
  have hp := hp s
  unfold attempt at h
  split at h
  · cases h
  · cases h
  · next hs => exact hp (by rw [hs])

theorem halts_within {p : Prog τ ε α} (hp : Halts p) (get : σ → τ) (put : τ → σ → σ) :
    Halts (p.within get put) := fun s => hp (get s)

theorem halts_ite {c : Prop} [Decidable c] {p q : Prog σ ε α} (hp : Halts p) (hq : Halts q) :
    Halts (if c then p else q) := by
  split
  · exact hp
  · exact hq

theorem halts_gather {f : γ → Prog σ ε (List α)} (h : ∀ x, Halts (f x)) (xs : List γ) :
    Halts (gather f xs) := by
  induction xs with
  | nil => exact halts_pure _
  | cons x xs ih => exact halts_bind (h x) fun _ => halts_bind ih fun _ => halts_pure _

end Halting

-- every run ends, and throws nothing but what is allowed
def Stops (Q : ε → Prop) (p : Prog σ ε α) : Prop :=
  ∀ s, match p s with
    | (.returned _, _) => True
    | (.thrown e, _) => Q e
    | (.diverged, _) => False

section Stopping

variable {Q R : ε → Prop} {p : Prog σ ε α}

theorem Stops.mono (hp : Stops Q p) (h : ∀ e, Q e → R e) : Stops R p := by
  intro s
  have hs := hp s
  rcases hrun : p s with ⟨o, t⟩
  rw [hrun] at hs
  cases o with
  | returned a => trivial
  | thrown e => exact h e hs
  | diverged => exact hs

theorem Stops.halts (hp : Stops Q p) : Halts p := by
  intro s h
  have hs := hp s
  rcases hrun : p s with ⟨o, t⟩
  rw [hrun] at h hs
  obtain rfl : o = .diverged := h
  exact hs

theorem Halts.stops (hp : Halts p) : Stops (fun _ => True) p := by
  intro s
  have hs := hp s
  rcases hrun : p s with ⟨o, t⟩
  rw [hrun] at hs
  cases o with
  | returned a => trivial
  | thrown e => trivial
  | diverged => exact hs rfl

theorem Stops.thrown (hp : Stops Q p) {s t : σ} {e : ε} (h : p s = (.thrown e, t)) : Q e := by
  have hs := hp s
  rwa [h] at hs

theorem stops_pure (a : α) : Stops Q (pure a : Prog σ ε α) := fun _ => trivial

theorem stops_fail {e : ε} (h : Q e) : Stops Q (Prog.fail e : Prog σ ε α) := fun _ => h

theorem stops_reads (f : σ → α) : Stops Q (Prog.reads f : Prog σ ε α) := fun _ => trivial

theorem stops_writes (f : σ → σ) : Stops Q (Prog.writes f : Prog σ ε Unit) := fun _ => trivial

theorem stops_bind_of {k : α → Prog σ ε β} (hp : Stops Q p)
    (hk : ∀ s a t, p s = (.returned a, t) → Stops Q (k a)) : Stops Q (p >>= k) := by
  intro s
  have hs := hp s
  rcases hrun : p s with ⟨o, t⟩
  rw [hrun] at hs
  cases o with
  | returned a =>
    rw [bind_of_returned hrun]
    exact hk s a t hrun t
  | thrown e =>
    rw [bind_of_thrown hrun]
    exact hs
  | diverged => exact hs.elim

theorem stops_bind {k : α → Prog σ ε β} (hp : Stops Q p) (hk : ∀ a, Stops Q (k a)) :
    Stops Q (p >>= k) := stops_bind_of hp fun _ a _ _ => hk a

theorem stops_attempt_bind {k : Except ε α → Prog σ ε β} (hp : Stops R p)
    (hok : ∀ a, Stops Q (k (.ok a))) (herror : ∀ e, R e → Stops Q (k (.error e))) :
    Stops Q (p.attempt >>= k) := by
  intro s
  have hs := hp s
  rcases hrun : p s with ⟨o, t⟩
  rw [hrun] at hs
  cases o with
  | returned a =>
    rw [bind_of_returned (attempt_ok.mpr hrun)]
    exact hok a t
  | thrown e =>
    rw [bind_of_returned (attempt_error.mpr hrun)]
    exact herror e hs t
  | diverged => exact hs.elim

theorem stops_within {p : Prog τ ε α} (hp : Stops Q p) (get : σ → τ) (put : τ → σ → σ) :
    Stops Q (p.within get put) := by
  intro s
  have hs := hp (get s)
  unfold within
  rcases hrun : p (get s) with ⟨o, t⟩
  rw [hrun] at hs
  cases o with
  | returned a => trivial
  | thrown e => exact hs
  | diverged => exact hs

theorem stops_ite {c : Prop} [Decidable c] {q : Prog σ ε α} (hp : Stops Q p) (hq : Stops Q q) :
    Stops Q (if c then p else q) := by
  split
  · exact hp
  · exact hq

end Stopping

-- a loop whose turns stop may run for ever, but throws only what they throw
def ThrowsOnly (Q : ε → Prop) (p : Prog σ ε α) : Prop := ∀ s e t, p s = (.thrown e, t) → Q e

section Throwing

variable {Q : ε → Prop} {p : Prog σ ε α} {β' ρ : Type}

theorem Stops.throwsOnly (hp : Stops Q p) : ThrowsOnly Q p := fun _ _ _ => hp.thrown

theorem throwsOnly_pure (a : α) : ThrowsOnly Q (pure a : Prog σ ε α) := (stops_pure a).throwsOnly

theorem throwsOnly_bind {k : α → Prog σ ε β} (hp : ThrowsOnly Q p) (hk : ∀ a, ThrowsOnly Q (k a)) :
    ThrowsOnly Q (p >>= k) := by
  intro s e t h
  rcases bind_thrown_inv h with h | ⟨a, u, -, h⟩
  · exact hp s e t h
  · exact hk a u e t h

theorem throwsOnly_doWhile {body : β' → Prog σ ε (Turn β' ρ)} (h : ∀ b, ThrowsOnly Q (body b))
    (fuel : Nat) (b : β') : ThrowsOnly Q (doWhile body fuel b) := by
  induction fuel generalizing b with
  | zero => exact fun s e t heq => by cases heq
  | succ fuel ih =>
    rw [doWhile_succ]
    refine throwsOnly_bind (h b) fun turn => ?_
    cases turn with
    | again b' => exact ih b'
    | leave b' => exact throwsOnly_pure _
    | quit r => exact throwsOnly_pure _

end Throwing

end Prog

end Program
