namespace Process

inductive Process (Op : Type) (Res : Op → Type) (α : Type) where
  | ret (a : α)
  | call (op : Op) (next : Res op → Process Op Res α)

variable {Op : Type} {Res : Op → Type} {α β σ : Type}

namespace Process

def andThen (f : α → Process Op Res β) : Process Op Res α → Process Op Res β
  | ret a => f a
  | call op next => call op fun r => andThen f (next r)

instance : Monad (Process Op Res) where
  pure := ret
  bind p f := andThen f p

def perform (op : Op) : Process Op Res (Res op) := call op ret

end Process

open Process

-- what a process may call, as a function of what it has been answered
structure Discipline (σ Op : Type) (Res : Op → Type) where
  allowed : σ → Op → Prop
  after : σ → (op : Op) → Res op → σ

variable (D : Discipline σ Op Res)

def Follows (Q : σ → α → Prop) : σ → Process Op Res α → Prop
  | c, .ret a => Q c a
  | c, .call op next => D.allowed c op ∧ ∀ r, Follows Q (D.after c op r) (next r)

variable {D} {Q : σ → α → Prop} {R : σ → β → Prop} {c : σ} {p : Process Op Res α}
  {f : α → Process Op Res β}

theorem follows_pure {a : α} (h : Q c a) : Follows D Q c (pure a) := h

theorem follows_perform {op : Op} {Q : σ → Res op → Prop} (hop : D.allowed c op)
    (h : ∀ r, Q (D.after c op r) r) : Follows D Q c (perform op) := ⟨hop, h⟩

theorem follows_bind (hp : Follows D Q c p) (hf : ∀ d a, Q d a → Follows D R d (f a)) :
    Follows D R c (p >>= f) := by
  induction p generalizing c with
  | ret a => exact hf c a hp
  | call op next ih => exact ⟨hp.1, fun r => ih r (hp.2 r)⟩

theorem follows_ite {b : Prop} [Decidable b] {q : Process Op Res α}
    (hp : b → Follows D Q c p) (hq : ¬b → Follows D Q c q) :
    Follows D Q c (if b then p else q) := by
  split
  · next h => exact hp h
  · next h => exact hq h

-- what is left of a process once these calls have been answered
inductive Reaches : Process Op Res α → List (Sigma Res) → Process Op Res α → Prop
  | here (p : Process Op Res α) : Reaches p [] p
  | answered {op : Op} {next : Res op → Process Op Res α} {r : Res op} {h : List (Sigma Res)}
      {q : Process Op Res α} : Reaches (next r) h q → Reaches (.call op next) (⟨op, r⟩ :: h) q

section Reaches

variable {h : List (Sigma Res)} {op : Op}

theorem Reaches.snoc {next : Res op → Process Op Res α} (hp : Reaches p h (.call op next))
    (r : Res op) : Reaches p (h ++ [⟨op, r⟩]) (next r) := by
  generalize hq : Process.call op next = q at hp
  induction hp with
  | here p =>
    subst hq
    exact .answered (.here _)
  | answered _ ih => exact .answered (ih hq)

theorem reaches_bind {b : β} (hp : Reaches (p >>= f) h (.ret b)) :
    ∃ a h₁ h₂, h = h₁ ++ h₂ ∧ Reaches p h₁ (.ret a) ∧ Reaches (f a) h₂ (.ret b) := by
  induction p generalizing h with
  | ret a => exact ⟨a, [], h, rfl, .here _, hp⟩
  | call op next ih =>
    cases hp with
    | answered hnext =>
      obtain ⟨a, h₁, h₂, rfl, hfirst, hlast⟩ := ih _ hnext
      exact ⟨a, _ :: h₁, h₂, rfl, .answered hfirst, hlast⟩

theorem Reaches.ret_unique {h₁ h₂ k₁ k₂ : List (Sigma Res)} {a b : α}
    (ha : Reaches p h₁ (.ret a)) (hb : Reaches p k₁ (.ret b)) (heq : h₁ ++ h₂ = k₁ ++ k₂) :
    a = b ∧ h₁ = k₁ := by
  induction p generalizing h₁ k₁ with
  | ret c =>
    cases ha
    cases hb
    exact ⟨rfl, rfl⟩
  | call op next ih =>
    cases ha with
    | answered hnext =>
      cases hb with
      | answered hnext' =>
        obtain ⟨hcall, hrest⟩ := List.cons.inj heq
        cases hcall
        obtain ⟨rfl, rfl⟩ := ih _ hnext hnext' hrest
        exact ⟨rfl, rfl⟩

theorem reaches_perform {r : Res op} (hp : Reaches (Process.perform op) h (.ret r)) :
    h = [⟨op, r⟩] := by
  cases hp with
  | answered hnext =>
    cases hnext
    rfl

end Reaches

end Process
