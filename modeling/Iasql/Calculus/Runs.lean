namespace Runs

variable {S A : Type}

inductive RunFrom (init : S → Prop) (step : S → A → S → Prop) (ok : S → A → Prop) : S → Prop
  | start {s} : init s → RunFrom init step ok s
  | next {s a t} : RunFrom init step ok s → ok s a → step s a t → RunFrom init step ok t

variable {init : S → Prop} {step : S → A → S → Prop} {ok : S → A → Prop}

theorem RunFrom.invariant {I : S → Prop} {s : S} (h : RunFrom init step ok s)
    (h0 : ∀ s, init s → I s) (hstep : ∀ s a t, I s → ok s a → step s a t → I t) : I s := by
  induction h with
  | start hs => exact h0 _ hs
  | next _ hok hst ih => exact hstep _ _ _ ih hok hst

theorem RunFrom.mono {ok' : S → A → Prop} {s : S} (h : RunFrom init step ok s)
    (hok : ∀ s a, ok s a → ok' s a) : RunFrom init step ok' s := by
  induction h with
  | start hs => exact .start hs
  | next _ hoks hst ih => exact ih.next (hok _ _ hoks) hst

-- what an observer that sees a part of the state makes of a run
theorem RunFrom.project {V : Type} (view : S → V) {seen : V → A → V → Prop} {init' : V → Prop}
    {ok' : V → A → Prop} {I : S → Prop} {s : S} (h : RunFrom init step ok s)
    (h0 : ∀ s, init s → I s ∧ init' (view s))
    (hstep : ∀ s a t, I s → ok s a → step s a t → I t ∧ ok' (view s) a ∧ seen (view s) a (view t)) :
    RunFrom init' seen ok' (view s) := by
  have hboth : I s ∧ RunFrom init' seen ok' (view s) := by
    induction h with
    | start hs => exact ⟨(h0 _ hs).1, .start (h0 _ hs).2⟩
    | next _ hok hst ih =>
      obtain ⟨hkept, hok', hseen⟩ := hstep _ _ _ ih.1 hok hst
      exact ⟨hkept, ih.2.next hok' hseen⟩
  exact hboth.2

def replay (step : S → A → Option S) (ok : S → A → Bool) : S → List A → Option S
  | s, [] => some s
  | s, a :: as => if ok s a then (step s a).bind fun t => replay step ok t as else none

def Run (s₀ : S) (step : S → A → Option S) (ok : S → A → Bool) : S → Prop :=
  RunFrom (· = s₀) (fun s a t => step s a = some t) fun s a => ok s a = true

section Replay

variable {s₀ s t : S} {f : S → A → Option S} {g : S → A → Bool}

theorem RunFrom.nextGetD {a : A} (h : RunFrom init (fun s a t => f s a = some t) ok s)
    (hok : ok s a) (hsome : (f s a).isSome = true) :
    RunFrom init (fun s a t => f s a = some t) ok ((f s a).getD s) := by
  obtain ⟨t, ht⟩ := Option.isSome_iff_exists.mp hsome
  rw [ht]
  exact h.next hok ht

theorem Run.start : Run s₀ f g s₀ := RunFrom.start rfl

theorem Run.invariant {I : S → Prop} (h : Run s₀ f g s) (h0 : I s₀)
    (hstep : ∀ s a t, I s → g s a = true → f s a = some t → I t) : I s :=
  RunFrom.invariant h (fun _ hs => hs ▸ h0) hstep

theorem Run.replay {as : List A} (h : Run s₀ f g s) (heq : Runs.replay f g s as = some t) :
    Run s₀ f g t := by
  induction as generalizing s with
  | nil =>
    cases heq
    exact h
  | cons a as ih =>
    rw [Runs.replay] at heq
    split at heq
    · next hok =>
      obtain ⟨u, hu, hrest⟩ := Option.bind_eq_some_iff.mp heq
      exact ih (RunFrom.next h hok hu) hrest
    · cases heq

theorem Run.replayGetD {as : List A} (h : Run s₀ f g s)
    (hsome : (Runs.replay f g s as).isSome = true) :
    Run s₀ f g ((Runs.replay f g s as).getD s) := by
  obtain ⟨t, ht⟩ := Option.isSome_iff_exists.mp hsome
  rw [ht]
  exact h.replay ht

end Replay

end Runs
