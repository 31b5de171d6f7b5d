import Iasql.Calculus.Batches

namespace Program

namespace Prog

variable {σ ε α β γ ρ κ : Type} {log : σ → List κ} {p : Prog σ ε α} {k : α → Prog σ ε β}
  {C D : κ → Prop}

section Issues

-- a program adds to the log, and only what is such
def Issues (log : σ → List κ) (C : κ → Prop) (p : Prog σ ε α) : Prop :=
  ∀ s, ∃ part, log (p s).2 = log s ++ part ∧ ∀ c ∈ part, C c

def Ensures (R : α → Prop) (p : Prog σ ε α) : Prop := ∀ s a t, p s = (.returned a, t) → R a

theorem issues_of_kept (h : ∀ s, log (p s).2 = log s) : Issues log C p := fun s =>
  ⟨[], by rw [h, List.append_nil], List.forall_mem_nil _⟩

theorem Issues.mono (h : Issues log C p) (hCD : ∀ c, C c → D c) : Issues log D p := by
  intro s
  obtain ⟨part, hlog, hpart⟩ := h s
  exact ⟨part, hlog, fun c hc => hCD c (hpart c hc)⟩

theorem Issues.bind_of {R : α → Prop} (hp : Issues log C p) (hR : Ensures R p)
    (hk : ∀ a, R a → Issues log C (k a)) : Issues log C (p >>= k) := by
  intro s
  obtain ⟨part, hlog, hpart⟩ := hp s
  rw [bind_apply]
  rcases hrun : p s with ⟨o, t⟩
  rw [hrun] at hlog
  cases o with
  | returned a =>
    obtain ⟨rest, hrest, hall⟩ := hk a (hR s a t hrun) t
    refine ⟨part ++ rest, ?_, fun c hc => ?_⟩
    · rw [← List.append_assoc, ← hlog, ← hrest]
    · exact (List.mem_append.mp hc).elim (hpart c) (hall c)
  | thrown e => exact ⟨part, hlog, hpart⟩
  | diverged => exact ⟨part, hlog, hpart⟩

theorem Issues.bind (hp : Issues log C p) (hk : ∀ a, Issues log C (k a)) : Issues log C (p >>= k) :=
  hp.bind_of (fun _ _ _ _ => trivial) fun a (_ : True) => hk a

theorem Issues.attempt (h : Issues log C p) : Issues log C (attempt p) := by
  intro s
  obtain ⟨part, hlog, hpart⟩ := h s
  refine ⟨part, ?_, hpart⟩
  rw [← hlog, Prog.attempt]
  rcases p s with ⟨o, t⟩
  cases o <;> rfl

theorem Issues.runIf {p : Prog σ ε Unit} (b : Bool) (h : Issues log C p) : Issues log C (runIf b p) := by
  cases b with
  | false => exact issues_of_kept fun _ => rfl
  | true => exact h

theorem issues_each {f : γ → Prog σ ε Unit} (h : ∀ x, Issues log C (f x)) (xs : List γ) :
    Issues log C (each f xs) := by
  induction xs with
  | nil => exact issues_of_kept fun _ => rfl
  | cons x xs ih => exact (h x).bind fun _ => ih

end Issues

section Clean

variable {P : κ → Prop} {s : σ}

def Clean (log : σ → List κ) (P : κ → Prop) (s : σ) : Prop := ∀ c ∈ log s, P c

theorem Issues.clean_iff (h : Issues log P p) : Clean log P (p s).2 ↔ Clean log P s := by
  obtain ⟨part, hlog, hpart⟩ := h s
  rw [Clean, hlog, List.forall_mem_append]
  exact and_iff_left hpart

-- one entry is made first, and where it is as it should be those behind it are
theorem clean_bind_iff {R : α → Prop} {c : κ} (hp : ∀ s, log (p s).2 = log s ++ [c])
    (hR : Ensures R p) (hk : ∀ a, R a → Issues log D (k a)) (hD : P c → ∀ d, D d → P d) :
    Clean log P ((p >>= k) s).2 ↔ Clean log P s ∧ P c := by
  have hfirst : Clean log P (p s).2 ↔ Clean log P s ∧ P c := by
    rw [Clean, hp, List.forall_mem_append]
    exact and_congr Iff.rfl (List.forall_mem_singleton)
  rw [← hfirst, bind_apply]
  rcases hrun : p s with ⟨o, t⟩
  rw [hrun] at hfirst
  cases o with
  | returned a =>
    obtain ⟨part, hlog, hpart⟩ := hk a (hR s a t hrun) t
    change Clean log P (k a t).2 ↔ Clean log P t
    rw [Clean, hlog, List.forall_mem_append]
    exact and_iff_left_of_imp fun hclean d hd => hD (hfirst.mp hclean).2 d (hpart d hd)
  | thrown e => exact Iff.rfl
  | diverged => exact Iff.rfl

-- the condition holds before each turn that the loop makes
def EachTurn (cond : σ → γ → Prop) (body : γ → Prog σ ε (Option ρ)) : List γ → σ → Prop
  | [], _ => True
  | x :: xs, s =>
    cond s x ∧ ((body x s).1 = .returned none → EachTurn cond body xs (body x s).2)

-- a loop makes entries as they should be exactly when each of its turns does
theorem clean_forOf_iff {cond : σ → γ → Prop} {body : γ → Prog σ ε (Option ρ)}
    (h : ∀ x s, Clean log P (body x s).2 ↔ Clean log P s ∧ cond s x) (xs : List γ) (s : σ) :
    Clean log P (forOf body xs s).2 ↔ Clean log P s ∧ EachTurn cond body xs s := by
  induction xs generalizing s with
  | nil => exact (and_iff_left trivial).symm
  | cons x xs ih =>
    rw [EachTurn, ← and_assoc, ← h x s]
    rcases hrun : body x s with ⟨o, t⟩
    have hstops : ∀ t', forOf body (x :: xs) s = t' → t'.2 = t → ¬ o = .returned none →
        (Clean log P (forOf body (x :: xs) s).2 ↔
          Clean log P t ∧ (o = .returned none → EachTurn cond body xs t)) := by
      intro t' hfor hstate hstop
      rw [hfor, hstate]
      exact (and_iff_left fun hgo => absurd hgo hstop).symm
    cases o with
    | returned r =>
      cases r with
      | none =>
        rw [forOf_next hrun, ih t]
        exact and_congr Iff.rfl ⟨fun hturns _ => hturns, fun hturns => hturns rfl⟩
      | some r => exact hstops _ (forOf_leave hrun) rfl nofun
    | thrown e => exact hstops _ (forOf_throw hrun) rfl nofun
    | diverged => exact hstops _ (by rw [forOf_cons, bind_of_diverged hrun]) rfl nofun

end Clean

end Prog

end Program
