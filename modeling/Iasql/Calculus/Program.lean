import Mathlib.Tactic.Common

namespace Program

inductive Outcome (ε α : Type) where
  | returned (a : α)
  | thrown (e : ε)
  | diverged
deriving DecidableEq

def Prog (σ ε α : Type) : Type := σ → Outcome ε α × σ

namespace Prog

variable {σ τ ε α β γ ρ : Type}

def andThen (p : Prog σ ε α) (k : α → Prog σ ε β) : Prog σ ε β := fun s =>
  match p s with
  | (.returned a, t) => k a t
  | (.thrown e, t) => (.thrown e, t)
  | (.diverged, t) => (.diverged, t)

instance : Monad (Prog σ ε) where
  pure a := fun s => (.returned a, s)
  bind := andThen

def fail (e : ε) : Prog σ ε α := fun s => (.thrown e, s)

def diverge : Prog σ ε α := fun s => (.diverged, s)

def reads (f : σ → α) : Prog σ ε α := fun s => (.returned (f s), s)

def writes (f : σ → σ) : Prog σ ε Unit := fun s => (.returned (), f s)

def attempt (p : Prog σ ε α) : Prog σ ε (Except ε α) := fun s =>
  match p s with
  | (.returned a, t) => (.returned (.ok a), t)
  | (.thrown e, t) => (.returned (.error e), t)
  | (.diverged, t) => (.diverged, t)

-- nobody waits for the program: its outcome is lost
def detached (p : Prog σ ε α) : Prog σ ε Unit := fun s => (.returned (), (p s).2)

-- an exception of the last block replaces the outcome it was about to deliver
def lastly (p : Prog σ ε α) (q : Prog σ ε Unit) : Prog σ ε α := fun s =>
  match p s with
  | (.diverged, t) => (.diverged, t)
  | (o, t) =>
    match q t with
    | (.returned _, u) => (o, u)
    | (.thrown e, u) => (.thrown e, u)
    | (.diverged, u) => (.diverged, u)

def within (get : σ → τ) (put : τ → σ → σ) (p : Prog τ ε α) : Prog σ ε α := fun s =>
  ((p (get s)).1, put (p (get s)).2 s)

def runIf (b : Bool) (p : Prog σ ε Unit) : Prog σ ε Unit := if b then p else pure ()

def each (f : γ → Prog σ ε Unit) : List γ → Prog σ ε Unit
  | [] => pure ()
  | x :: xs => do f x; each f xs

def gather (f : γ → Prog σ ε (List α)) : List γ → Prog σ ε (List α)
  | [] => pure []
  | x :: xs => do return (← f x) ++ (← gather f xs)

inductive Turn (β ρ : Type) where
  | again (b : β)
  | leave (b : β)
  | quit (r : ρ)

def doWhile (body : β → Prog σ ε (Turn β ρ)) : Nat → β → Prog σ ε (β ⊕ ρ)
  | 0, _ => diverge
  | n + 1, b => do
    match ← body b with
    | .again b' => doWhile body n b'
    | .leave b' => pure (.inl b')
    | .quit r => pure (.inr r)

def Turn.IsAgain : Turn β ρ → Prop
  | .again _ => True
  | _ => False

theorem doWhile_succ (body : β → Prog σ ε (Turn β ρ)) (n : Nat) (b : β) :
    doWhile body (n + 1) b = body b >>= fun turn =>
      match turn with
      | .again b' => doWhile body n b'
      | .leave b' => pure (.inl b')
      | .quit r => pure (.inr r) := by
  rw [doWhile]

theorem doWhile_once {body : β → Prog σ ε (Turn β ρ)} {n : Nat} {b : β} {s : σ}
    (h : ∀ turn t, body b s = (.returned turn, t) → ¬ turn.IsAgain) :
    (doWhile body (n + 1) b s).2 = (body b s).2 := by
  rw [doWhile_succ]
  change (andThen _ _ s).2 = _
  unfold andThen
  match hs : body b s with
  | (.returned (.again b'), t) => exact absurd trivial (h _ _ hs)
  | (.returned (.leave b'), t) => rfl
  | (.returned (.quit r), t) => rfl
  | (.thrown e, t) => rfl
  | (.diverged, t) => rfl

theorem doWhile_once_returned {body : β → Prog σ ε (Turn β ρ)} {n : Nat} {b : β} {s t : σ}
    {r : β ⊕ ρ} (h : ∀ turn t, body b s = (.returned turn, t) → ¬ turn.IsAgain)
    (hr : doWhile body (n + 1) b s = (.returned r, t)) :
    (∃ b', body b s = (.returned (.leave b'), t) ∧ r = .inl b') ∨
      ∃ x, body b s = (.returned (.quit x), t) ∧ r = .inr x := by
  rw [doWhile_succ] at hr
  change andThen _ _ s = _ at hr
  unfold andThen at hr
  match hs : body b s with
  | (.returned (.again b'), u) => exact absurd trivial (h _ _ hs)
  | (.returned (.leave b'), u) => rw [hs] at hr; cases hr; exact .inl ⟨_, rfl, rfl⟩
  | (.returned (.quit x), u) => rw [hs] at hr; cases hr; exact .inr ⟨_, rfl, rfl⟩
  | (.thrown e, u) => rw [hs] at hr; cases hr
  | (.diverged, u) => rw [hs] at hr; cases hr

section Evaluation

variable {p : Prog σ ε α} {k : α → Prog σ ε β} {s t : σ} {a : α} {e : ε}

@[simp] theorem pure_apply (a : α) (s : σ) :
    (pure a : Prog σ ε α) s = (.returned a, s) := rfl

@[simp] theorem fail_apply (e : ε) (s : σ) :
    (fail e : Prog σ ε α) s = (.thrown e, s) := rfl

@[simp] theorem reads_apply (f : σ → α) (s : σ) :
    (reads f : Prog σ ε α) s = (.returned (f s), s) := rfl

@[simp] theorem writes_apply (f : σ → σ) (s : σ) :
    (writes f : Prog σ ε Unit) s = (.returned (), f s) := rfl

theorem bind_apply (p : Prog σ ε α) (k : α → Prog σ ε β) (s : σ) :
    (p >>= k) s = match p s with
      | (.returned a, t) => k a t
      | (.thrown e, t) => (.thrown e, t)
      | (.diverged, t) => (.diverged, t) := rfl

theorem bind_of_returned (h : p s = (.returned a, t)) : (p >>= k) s = k a t := by
  rw [bind_apply, h]

theorem bind_of_thrown (h : p s = (.thrown e, t)) : (p >>= k) s = (.thrown e, t) := by
  rw [bind_apply, h]

theorem bind_of_diverged (h : p s = (.diverged, t)) : (p >>= k) s = (.diverged, t) := by
  rw [bind_apply, h]

@[simp] theorem pure_bind_apply (a : α) (k : α → Prog σ ε β) (s : σ) :
    ((pure a : Prog σ ε α) >>= k) s = k a s := rfl

@[simp] theorem reads_bind_apply (f : σ → α) (k : α → Prog σ ε β) (s : σ) :
    ((reads f : Prog σ ε α) >>= k) s = k (f s) s := rfl

@[simp] theorem writes_bind_apply (f : σ → σ) (k : Unit → Prog σ ε β) (s : σ) :
    ((writes f : Prog σ ε Unit) >>= k) s = k () (f s) := rfl

@[simp] theorem fail_bind_apply (e : ε) (k : α → Prog σ ε β) (s : σ) :
    ((fail e : Prog σ ε α) >>= k) s = (.thrown e, s) := rfl

theorem bind_returned_inv {b : β} (h : (p >>= k) s = (.returned b, t)) :
    ∃ a u, p s = (.returned a, u) ∧ k a u = (.returned b, t) := by
  rw [bind_apply] at h
  match hp : p s with
  | (.returned a, u) => rw [hp] at h; exact ⟨a, u, rfl, h⟩
  | (.thrown e, u) => rw [hp] at h; cases h
  | (.diverged, u) => rw [hp] at h; cases h

theorem forall_bind_returned {P : β → σ → Prop} :
    (∀ b u, (p >>= k) s = (.returned b, u) → P b u) ↔
      ∀ a t, p s = (.returned a, t) → ∀ b u, k a t = (.returned b, u) → P b u := by
  constructor
  · intro h a t hp b u hk
    exact h b u (by rw [bind_of_returned hp, hk])
  · intro h b u hbind
    obtain ⟨a, t, hp, hk⟩ := bind_returned_inv hbind
    exact h a t hp b u hk

theorem bind_thrown_inv (h : (p >>= k) s = (.thrown e, t)) :
    p s = (.thrown e, t) ∨ ∃ a u, p s = (.returned a, u) ∧ k a u = (.thrown e, t) := by
  rw [bind_apply] at h
  match hp : p s with
  | (.returned a, u) => rw [hp] at h; exact .inr ⟨a, u, rfl, h⟩
  | (.thrown e', u) => rw [hp] at h; cases h; exact .inl rfl
  | (.diverged, u) => rw [hp] at h; cases h

theorem bind_assoc_apply (p : Prog σ ε α) (k : α → Prog σ ε β) (l : β → Prog σ ε γ) (s : σ) :
    ((p >>= k) >>= l) s = (p >>= fun a => k a >>= l) s := by
  rw [bind_apply, bind_apply, bind_apply]
  match p s with
  | (.returned a, t) => rfl
  | (.thrown e, t) => rfl
  | (.diverged, t) => rfl

theorem bind_congr_apply {l : α → Prog σ ε β} (h : ∀ a t, k a t = l a t) (s : σ) :
    (p >>= k) s = (p >>= l) s := by
  have hk : k = l := funext fun a => funext fun t => h a t
  rw [hk]

theorem bind_pure_snd (p : Prog σ ε α) (f : α → β) (s : σ) :
    ((p >>= fun a => pure (f a)) s).2 = (p s).2 := by
  rw [bind_apply]
  match p s with
  | (.returned _, _) => rfl
  | (.thrown _, _) => rfl
  | (.diverged, _) => rfl

theorem bind_unit_apply (p : Prog σ ε Unit) (s : σ) : (p >>= fun _ => pure ()) s = p s := by
  rw [bind_apply]
  match p s with
  | (.returned _, t) => rfl
  | (.thrown e, t) => rfl
  | (.diverged, t) => rfl

theorem lastly_snd_of_diverged {q : Prog σ ε Unit} (h : p s = (.diverged, t)) :
    (p.lastly q s).2 = t := by
  unfold lastly
  rw [h]

theorem lastly_snd {q : Prog σ ε Unit} {o : Outcome ε α} (h : p s = (o, t)) (ho : o ≠ .diverged) :
    (p.lastly q s).2 = (q t).2 := by
  unfold lastly
  rw [h]
  cases o with
  | diverged => exact absurd rfl ho
  | returned a =>
    match hq : q t with
    | (.returned _, u) => simp [hq]
    | (.thrown e, u) => simp [hq]
    | (.diverged, u) => simp [hq]
  | thrown e =>
    match hq : q t with
    | (.returned _, u) => simp [hq]
    | (.thrown e, u) => simp [hq]
    | (.diverged, u) => simp [hq]

theorem run_eq {o : Outcome ε α} (h : (p s).1 = o) : p s = (o, (p s).2) := by rw [← h]

theorem attempt_ok : p.attempt s = (.returned (.ok a), t) ↔ p s = (.returned a, t) := by
  unfold attempt
  match p s with
  | (.returned b, u) => simp
  | (.thrown e, u) => simp
  | (.diverged, u) => simp

theorem attempt_error : p.attempt s = (.returned (.error e), t) ↔ p s = (.thrown e, t) := by
  unfold attempt
  match p s with
  | (.returned b, u) => simp
  | (.thrown e, u) => simp
  | (.diverged, u) => simp

theorem attempt_diverged (h : p s = (.diverged, t)) : p.attempt s = (.diverged, t) := by
  unfold attempt
  rw [h]

end Evaluation

end Prog

structure Frame (σ : Type) where
  rel : σ → σ → Prop
  refl : ∀ s, rel s s
  trans : ∀ {s t u}, rel s t → rel t u → rel s u

namespace Frame

variable {σ τ ε α β γ ρ : Type} (F : Frame σ)

-- whatever the outcome, the state moves along the frame's relation
def Keeps (p : Prog σ ε α) : Prop := ∀ s, F.rel s (p s).2

def ofInvariant (I : σ → Prop) : Frame σ where
  rel s t := I s → I t
  refl _ := id
  trans h k := k ∘ h

def ofField (f : σ → γ) : Frame σ where
  rel s t := f t = f s
  refl _ := rfl
  trans h k := k.trans h

variable {F}

theorem keeps_pure (a : α) : F.Keeps (pure a : Prog σ ε α) := fun s => F.refl s

theorem keeps_fail (e : ε) : F.Keeps (Prog.fail e : Prog σ ε α) := fun s => F.refl s

theorem keeps_diverge : F.Keeps (Prog.diverge : Prog σ ε α) := fun s => F.refl s

theorem keeps_reads (f : σ → α) : F.Keeps (Prog.reads f : Prog σ ε α) := fun s => F.refl s

theorem keeps_writes {f : σ → σ} (h : ∀ s, F.rel s (f s)) :
    F.Keeps (Prog.writes f : Prog σ ε Unit) := h

theorem rel_of_eq {p : Prog σ ε α} (hp : F.Keeps p) {s t : σ} {o : Outcome ε α}
    (h : p s = (o, t)) : F.rel s t := by
  have hkeep := hp s
  rwa [h] at hkeep

theorem attempt_snd (p : Prog σ ε α) (s : σ) : (p.attempt s).2 = (p s).2 := by
  unfold Prog.attempt
  match p s with
  | (.returned a, t) => rfl
  | (.thrown e, t) => rfl
  | (.diverged, t) => rfl

section Pointwise

variable {p : Prog σ ε α} {s : σ}

theorem rel_bind {k : α → Prog σ ε β} (hp : F.rel s (p s).2)
    (hk : ∀ a t, p s = (.returned a, t) → F.rel t (k a t).2) : F.rel s ((p >>= k) s).2 := by
  rw [Prog.bind_apply]
  match hs : p s with
  | (.returned a, t) => rw [hs] at hp; exact F.trans hp (hk a t hs)
  | (.thrown e, t) => rw [hs] at hp; exact hp
  | (.diverged, t) => rw [hs] at hp; exact hp

theorem rel_attempt : F.rel s (p.attempt s).2 ↔ F.rel s (p s).2 := by
  unfold Prog.attempt
  match p s with
  | (.returned a, t) => exact Iff.rfl
  | (.thrown e, t) => exact Iff.rfl
  | (.diverged, t) => exact Iff.rfl

theorem rel_lastly {q : Prog σ ε Unit} (hp : F.rel s (p s).2) (hq : F.Keeps q) :
    F.rel s ((p.lastly q) s).2 := by
  have key : ∀ t, (p s).2 = t → F.rel s (q t).2 := by
    rintro t rfl
    exact F.trans hp (hq _)
  unfold Prog.lastly
  match hs : p s with
  | (.diverged, t) => rw [hs] at hp; exact hp
  | (.returned a, t) =>
    have := key t (by rw [hs])
    match ht : q t with
    | (.returned _, u) => rw [ht] at this; simpa [ht] using this
    | (.thrown e, u) => rw [ht] at this; simpa [ht] using this
    | (.diverged, u) => rw [ht] at this; simpa [ht] using this
  | (.thrown e, t) =>
    have := key t (by rw [hs])
    match ht : q t with
    | (.returned _, u) => rw [ht] at this; simpa [ht] using this
    | (.thrown e, u) => rw [ht] at this; simpa [ht] using this
    | (.diverged, u) => rw [ht] at this; simpa [ht] using this

end Pointwise

theorem keeps_bind_of {p : Prog σ ε α} {k : α → Prog σ ε β} (hp : F.Keeps p)
    (hk : ∀ s a t, p s = (.returned a, t) → F.rel t (k a t).2) : F.Keeps (p >>= k) :=
  fun s => rel_bind (hp s) (hk s)

theorem keeps_bind {p : Prog σ ε α} {k : α → Prog σ ε β} (hp : F.Keeps p)
    (hk : ∀ a, F.Keeps (k a)) : F.Keeps (p >>= k) :=
  keeps_bind_of hp fun _ a t _ => hk a t

theorem keeps_attempt {p : Prog σ ε α} (hp : F.Keeps p) : F.Keeps p.attempt :=
  fun s => rel_attempt.mpr (hp s)

theorem keeps_detached {p : Prog σ ε α} (hp : F.Keeps p) : F.Keeps p.detached := hp

theorem keeps_lastly {p : Prog σ ε α} {q : Prog σ ε Unit} (hp : F.Keeps p)
    (hq : F.Keeps q) : F.Keeps (p.lastly q) := fun s => rel_lastly (hp s) hq

theorem keeps_ite {c : Prop} [Decidable c] {p q : Prog σ ε α} (hp : F.Keeps p)
    (hq : F.Keeps q) : F.Keeps (if c then p else q) := by
  split
  · exact hp
  · exact hq

theorem keeps_each {f : γ → Prog σ ε Unit} {xs : List γ} (h : ∀ x ∈ xs, F.Keeps (f x)) :
    F.Keeps (Prog.each f xs) := by
  induction xs with
  | nil => exact keeps_pure ()
  | cons x xs ih =>
    exact keeps_bind (h x (by simp)) fun _ => ih fun y hy => h y (by simp [hy])

theorem keeps_gather {f : γ → Prog σ ε (List α)} {xs : List γ}
    (h : ∀ x ∈ xs, F.Keeps (f x)) : F.Keeps (Prog.gather f xs) := by
  induction xs with
  | nil => exact keeps_pure []
  | cons x xs ih =>
    exact keeps_bind (h x (by simp)) fun _ =>
      keeps_bind (ih fun y hy => h y (by simp [hy])) fun _ => keeps_pure _

theorem gather_returned {f : γ → Prog σ ε (List α)} {xs : List γ} (h : ∀ x ∈ xs, F.Keeps (f x))
    {s t : σ} {out : List α} (hrun : Prog.gather f xs s = (.returned out, t)) {x : γ} (hx : x ∈ xs) :
    ∃ o u v, f x u = (.returned o, v) ∧ o ⊆ out ∧ F.rel v t := by
  induction xs generalizing s out with
  | nil => cases hx
  | cons y ys ih =>
    obtain ⟨o, u, ho, hrest⟩ := Prog.bind_returned_inv hrun
    obtain ⟨rest, v, hys, hpure⟩ := Prog.bind_returned_inv hrest
    cases hpure
    have hkeep : ∀ y ∈ ys, F.Keeps (f y) := fun y hy => h y (by simp [hy])
    rcases List.mem_cons.mp hx with rfl | hx
    · have hrel := keeps_gather hkeep u
      rw [hys] at hrel
      exact ⟨o, s, u, ho, List.subset_append_left _ _, hrel⟩
    · obtain ⟨o', u', v', hf, hsub, hrel⟩ := ih hkeep hys hx
      exact ⟨o', u', v', hf, fun a ha => List.mem_append_right _ (hsub ha), hrel⟩

theorem keeps_doWhile {body : β → Prog σ ε (Prog.Turn β ρ)} (h : ∀ b, F.Keeps (body b))
    (n : Nat) (b : β) : F.Keeps (Prog.doWhile body n b) := by
  induction n generalizing b with
  | zero => exact keeps_diverge
  | succ n ih =>
    refine keeps_bind (h b) ?_
    rintro (b' | b' | r)
    · exact ih b'
    · exact keeps_pure _
    · exact keeps_pure _

variable (F) in
def KeepsOnThrow (p : Prog σ ε α) : Prop := ∀ s e t, p s = (.thrown e, t) → F.rel s t

theorem keepsOnThrow_of_keeps {p : Prog σ ε α} (hp : F.Keeps p) : F.KeepsOnThrow p := by
  intro s e t heq
  have hkeep := hp s
  rw [heq] at hkeep
  exact hkeep

theorem keepsOnThrow_bind {p : Prog σ ε α} {k : α → Prog σ ε β} (hp : F.Keeps p)
    (hk : ∀ a, F.KeepsOnThrow (k a)) : F.KeepsOnThrow (p >>= k) := by
  intro s e t heq
  rcases Prog.bind_thrown_inv heq with hthrow | ⟨a, u, hreturn, hthrow⟩
  · exact keepsOnThrow_of_keeps hp s e t hthrow
  · have hkeep := hp s
    rw [hreturn] at hkeep
    exact F.trans hkeep (hk a u e t hthrow)

theorem keepsOnThrow_bind_pure {p : Prog σ ε α} {f : α → β} (hp : F.KeepsOnThrow p) :
    F.KeepsOnThrow (p >>= fun a => pure (f a)) := by
  intro s e t heq
  rcases Prog.bind_thrown_inv heq with hthrow | ⟨a, u, -, hpure⟩
  · exact hp s e t hthrow
  · cases hpure

variable (F) in
def KeepsOrReturns (p : Prog σ ε α) : Prop := ∀ s, F.rel s (p s).2 ∨ ∃ a t, p s = (.returned a, t)

theorem keepsOrReturns_bind {p : Prog σ ε α} {k : α → Prog σ ε β} (hp : F.Keeps p)
    (hk : ∀ a, F.KeepsOrReturns (k a)) : F.KeepsOrReturns (p >>= k) := by
  intro s
  have hkeep := hp s
  rw [Prog.bind_apply]
  match hs : p s with
  | (.returned a, t) =>
    rw [hs] at hkeep
    exact (hk a t).imp_left (F.trans hkeep)
  | (.thrown e, t) =>
    rw [hs] at hkeep
    exact .inl hkeep
  | (.diverged, t) =>
    rw [hs] at hkeep
    exact .inl hkeep

theorem keepsOrReturns_then {p : Prog σ ε α} {k : α → Prog σ ε β} (hp : F.KeepsOrReturns p)
    (hk : ∀ a s, ∃ b t, k a s = (.returned b, t)) : F.KeepsOrReturns (p >>= k) := by
  intro s
  rcases hp s with hkeep | ⟨a, t, hreturn⟩
  · rw [Prog.bind_apply]
    match hs : p s with
    | (.returned a, t) => exact .inr (hk a t)
    | (.thrown e, t) =>
      rw [hs] at hkeep
      exact .inl hkeep
    | (.diverged, t) =>
      rw [hs] at hkeep
      exact .inl hkeep
  · rw [Prog.bind_of_returned hreturn]
    exact .inr (hk a t)

theorem rel_after_bind {p : Prog σ ε α} {k : α → Prog σ ε β} (hk : ∀ a, F.Keeps (k a)) (s : σ) :
    F.rel (p s).2 ((p >>= k) s).2 := by
  rw [Prog.bind_apply]
  match p s with
  | (.returned a, t) => exact hk a t
  | (.thrown e, t) => exact F.refl t
  | (.diverged, t) => exact F.refl t

end Frame

namespace Frame

-- along G the relation of F can be lost but not regained
structure Divides {σ : Type} (G F : Frame σ) : Prop where
  left : ∀ {s t u}, G.rel s t → G.rel t u → F.rel s u → F.rel s t
  right : ∀ {s t u}, G.rel s t → G.rel t u → F.rel s u → F.rel t u

namespace Divides

variable {σ ε α β γ : Type} {G F : Frame σ} (h : Divides G F) {p : Prog σ ε α}
  {k : α → Prog σ ε β} {s : σ}

include h

theorem bind_left (hF : F.Keeps p) (hG : G.Keeps p) (hk : ∀ a, G.Keeps (k a)) :
    F.rel s ((p >>= k) s).2 ↔ ∀ a t, p s = (.returned a, t) → F.rel t (k a t).2 := by
  have h1 := hF s
  have h2 := hG s
  rw [Prog.bind_apply]
  match hs : p s with
  | (.returned a, t) =>
    rw [hs] at h1 h2
    constructor
    · rintro hrel b u ⟨⟩
      exact h.right h2 (hk a t) hrel
    · intro hall
      exact F.trans h1 (hall a t rfl)
  | (.thrown e, t) => rw [hs] at h1; exact ⟨fun _ _ _ heq => (nomatch heq), fun _ => h1⟩
  | (.diverged, t) => rw [hs] at h1; exact ⟨fun _ _ _ heq => (nomatch heq), fun _ => h1⟩

theorem bind_first_of (hG : G.Keeps p)
    (hk : ∀ a t, p s = (.returned a, t) → G.rel t (k a t).2)
    (hrel : F.rel s ((p >>= k) s).2) : F.rel s (p s).2 := by
  have h2 := hG s
  rw [Prog.bind_apply] at hrel
  match hs : p s with
  | (.returned a, t) => rw [hs] at hrel h2; exact h.left h2 (hk a t hs) hrel
  | (.thrown e, t) => rw [hs] at hrel; exact hrel
  | (.diverged, t) => rw [hs] at hrel; exact hrel

theorem bind_first (hG : G.Keeps p) (hk : ∀ a, G.Keeps (k a)) (hrel : F.rel s ((p >>= k) s).2) :
    F.rel s (p s).2 := h.bind_first_of hG (fun a t _ => hk a t) hrel

theorem bind_right (hG : G.Keeps p) (hk : ∀ a, G.Keeps (k a)) (hF : ∀ a, F.Keeps (k a)) :
    F.rel s ((p >>= k) s).2 ↔ F.rel s (p s).2 := by
  refine ⟨h.bind_first hG hk, fun hrel => ?_⟩
  rw [Prog.bind_apply]
  match hs : p s with
  | (.returned a, t) => rw [hs] at hrel; exact F.trans hrel (hF a t)
  | (.thrown e, t) => rw [hs] at hrel; exact hrel
  | (.diverged, t) => rw [hs] at hrel; exact hrel

theorem lastly {q : Prog σ ε Unit} (hG : G.Keeps p) (hq : G.Keeps q) (hF : F.Keeps q) :
    F.rel s ((p.lastly q) s).2 ↔ F.rel s (p s).2 := by
  refine ⟨fun hrel => ?_, fun hrel => rel_lastly hrel hF⟩
  have h2 := hG s
  unfold Prog.lastly at hrel
  match hs : p s with
  | (.diverged, t) => rw [hs] at hrel; exact hrel
  | (.returned a, t) =>
    rw [hs] at hrel h2
    refine h.left h2 (hq t) ?_
    match ht : q t with
    | (.returned _, u) => simpa [ht] using hrel
    | (.thrown e, u) => simpa [ht] using hrel
    | (.diverged, u) => simpa [ht] using hrel
  | (.thrown e, t) =>
    rw [hs] at hrel h2
    refine h.left h2 (hq t) ?_
    match ht : q t with
    | (.returned _, u) => simpa [ht] using hrel
    | (.thrown e, u) => simpa [ht] using hrel
    | (.diverged, u) => simpa [ht] using hrel

theorem doWhile_first {ρ : Type} {body : β → Prog σ ε (Prog.Turn β ρ)} {b : β}
    (hG : ∀ b, G.Keeps (body b)) {n : Nat}
    (hrel : F.rel s (Prog.doWhile body (n + 1) b s).2) : F.rel s (body b s).2 := by
  rw [Prog.doWhile_succ] at hrel
  refine h.bind_first (hG b) ?_ hrel
  rintro (b' | b' | r)
  · exact keeps_doWhile hG n b'
  · exact keeps_pure _
  · exact keeps_pure _

end Divides

end Frame

def Returns {σ ε α : Type} (P : σ → Prop) (p : Prog σ ε α) (Q : α → σ → Prop) : Prop :=
  ∀ s a t, P s → p s = (.returned a, t) → Q a t

section Rules

variable {σ ε α β γ ρ : Type} {P : σ → Prop} {Q : α → σ → Prop}

theorem returns_pure {a : α} (h : ∀ s, P s → Q a s) :
    Returns P (pure a : Prog σ ε α) Q := by
  intro s b t hs heq
  cases heq
  exact h s hs

theorem returns_fail (e : ε) : Returns P (Prog.fail e : Prog σ ε α) Q := by
  intro s a t _ heq
  cases heq

theorem returns_reads {f : σ → α} (h : ∀ s, P s → Q (f s) s) :
    Returns P (Prog.reads f : Prog σ ε α) Q := by
  intro s b t hs heq
  cases heq
  exact h s hs

theorem returns_bind {p : Prog σ ε α} {k : α → Prog σ ε β} {R : β → σ → Prop}
    (hp : Returns P p Q) (hk : ∀ a, Returns (Q a) (k a) R) : Returns P (p >>= k) R := by
  intro s b t hs heq
  obtain ⟨a, u, ha, hb⟩ := Prog.bind_returned_inv heq
  exact hk a u b t (hp s a u hs ha) hb

theorem Returns.mono {P' : σ → Prop} {Q' : α → σ → Prop} {p : Prog σ ε α}
    (h : Returns P p Q) (hP : ∀ s, P' s → P s) (hQ : ∀ a s, Q a s → Q' a s) :
    Returns P' p Q' := fun s a t hs heq => hQ a t (h s a t (hP s hs) heq)

theorem returns_ite {c : Prop} [Decidable c] {p q : Prog σ ε α} (hp : Returns P p Q)
    (hq : Returns P q Q) : Returns P (if c then p else q) Q := by
  split
  · exact hp
  · exact hq

theorem returns_assume {A : Prop} {p : Prog σ ε α} (h : A → Returns P p Q) :
    Returns (fun s => P s ∧ A) p Q := fun s a t hs => h hs.2 s a t hs.1

theorem returns_doWhile {body : β → Prog σ ε (Prog.Turn β ρ)} (I : β → σ → Prop)
    {Q : β ⊕ ρ → σ → Prop}
    (h : ∀ b, Returns (I b) (body b) fun r s =>
      match r with
      | .again b' => I b' s
      | .leave b' => Q (.inl b') s
      | .quit r => Q (.inr r) s)
    (n : Nat) (b : β) : Returns (I b) (Prog.doWhile body n b) Q := by
  induction n generalizing b with
  | zero => intro s a t _ heq; cases heq
  | succ n ih =>
    refine returns_bind (h b) ?_
    rintro (b' | b' | r)
    · exact ih b'
    · exact returns_pure fun _ hs => hs
    · exact returns_pure fun _ hs => hs

theorem returns_attempt {p : Prog σ ε α} (hp : Returns P p Q) :
    Returns P p.attempt fun r t => ∀ a, r = .ok a → Q a t := by
  rintro s _ t hs heq a rfl
  exact hp s a t hs (Prog.attempt_ok.mp heq)

theorem returns_lastly {p : Prog σ ε α} {q : Prog σ ε Unit} (hp : Returns P p Q)
    (hq : ∀ a t, Q a t → Q a (q t).2) : Returns P (p.lastly q) Q := by
  intro s a u hs heq
  rcases hrun : p s with ⟨o, t⟩
  cases o with
  | returned b =>
    have hkept := hq b t (hp s b t hs hrun)
    rw [Prog.lastly, hrun] at heq
    rcases hlast : q t with ⟨o, v⟩
    rw [hlast] at hkept
    cases o <;> simp only [hlast] at heq <;> cases heq
    exact hkept
  | thrown e =>
    rw [Prog.lastly, hrun] at heq
    rcases hlast : q t with ⟨o, v⟩
    cases o <;> simp only [hlast] at heq <;> cases heq
  | diverged =>
    rw [Prog.lastly, hrun] at heq
    cases heq

end Rules

-- R holds where the program returns, Q where it ends in any other way
def Ends {σ ε α : Type} (P : σ → Prop) (p : Prog σ ε α) (R : α → σ → Prop) (Q : σ → Prop) : Prop :=
  ∀ s, P s → match p s with
    | (.returned a, t) => R a t
    | (_, t) => Q t

section Endings

variable {σ ε α β γ : Type} {P Q : σ → Prop} {R : α → σ → Prop} {p : Prog σ ε α}

theorem ends_of_keeps {F : Frame σ} (h : F.Keeps p) (hP : ∀ s t, P s → F.rel s t → P t) :
    Ends P p (fun _ => P) P := by
  intro s hs
  have hrel := hP s _ hs (h s)
  split <;> next heq => simpa [heq] using hrel

theorem ends_bind {k : α → Prog σ ε β} {R' : β → σ → Prop} (hp : Ends P p R Q)
    (hk : ∀ a, Ends (R a) (k a) R' Q) : Ends P (p >>= k) R' Q := by
  intro s hs
  have hend := hp s hs
  rcases hrun : p s with ⟨o, t⟩
  rw [hrun] at hend
  cases o with
  | returned a =>
    rw [Prog.bind_of_returned hrun]
    exact hk a t hend
  | thrown e =>
    rw [Prog.bind_of_thrown hrun]
    exact hend
  | diverged =>
    rw [Prog.bind_of_diverged hrun]
    exact hend

theorem Ends.mono {P' Q' : σ → Prop} {R' : α → σ → Prop} (h : Ends P p R Q)
    (hP : ∀ s, P' s → P s) (hR : ∀ a s, R a s → R' a s) (hQ : ∀ s, Q s → Q' s) :
    Ends P' p R' Q' := by
  intro s hs
  have hend := h s (hP s hs)
  rcases hrun : p s with ⟨o, t⟩
  rw [hrun] at hend
  cases o with
  | returned a => exact hR a t hend
  | thrown e => exact hQ t hend
  | diverged => exact hQ t hend

theorem Ends.snd (h : Ends P p (fun _ => Q) Q) {s : σ} (hs : P s) : Q (p s).2 := by
  have hend := h s hs
  rcases hrun : p s with ⟨o, t⟩
  rw [hrun] at hend
  cases o <;> exact hend

theorem ends_of_snd (h : ∀ s, P s → Q (p s).2) : Ends P p (fun _ => Q) Q := by
  intro s hs
  have hend := h s hs
  rcases hrun : p s with ⟨o, t⟩
  rw [hrun] at hend
  cases o <;> exact hend

theorem ends_each {f : γ → Prog σ ε Unit} {xs : List γ} (I : List γ → σ → Prop)
    (h : ∀ pre x post, xs = pre ++ x :: post → Ends (I pre) (f x) (fun _ => I (pre ++ [x])) Q) :
    Ends (I []) (Prog.each f xs) (fun _ => I xs) Q := by
  have hrest : ∀ (post pre : List γ), xs = pre ++ post →
      Ends (I pre) (Prog.each f post) (fun _ => I xs) Q := by
    intro post
    induction post with
    | nil =>
      intro pre hxs s hs
      rw [hxs, List.append_nil]
      exact hs
    | cons x post ih =>
      intro pre hxs
      refine ends_bind (h pre x post hxs) fun _ => ih (pre ++ [x]) ?_
      simp [hxs]
  exact hrest xs [] rfl

end Endings

section Weakest

variable {σ ε α β γ : Type}

-- a program that does not end owes nothing
def Wp (p : Prog σ ε α) (Q : α → σ → Prop) (R : ε → σ → Prop) (s : σ) : Prop :=
  match p s with
  | (.returned a, t) => Q a t
  | (.thrown e, t) => R e t
  | (.diverged, _) => True

variable {p : Prog σ ε α} {Q : α → σ → Prop} {R : ε → σ → Prop} {s : σ}

theorem forall_thrown_iff : (∀ e t, p s = (.thrown e, t) → R e t) ↔ Wp p (fun _ _ => True) R s := by
  unfold Wp
  rcases hrun : p s with ⟨o, t⟩
  cases o <;> simp

theorem wp_pure (a : α) : Wp (pure a : Prog σ ε α) Q R s ↔ Q a s := Iff.rfl

theorem wp_fail (e : ε) : Wp (Prog.fail e : Prog σ ε α) Q R s ↔ R e s := Iff.rfl

theorem wp_reads (f : σ → α) : Wp (Prog.reads f : Prog σ ε α) Q R s ↔ Q (f s) s := Iff.rfl

theorem wp_writes {Q : Unit → σ → Prop} (f : σ → σ) :
    Wp (Prog.writes f : Prog σ ε Unit) Q R s ↔ Q () (f s) := Iff.rfl

theorem wp_bind {k : α → Prog σ ε β} {Q : β → σ → Prop} :
    Wp (p >>= k) Q R s ↔ Wp p (fun a => Wp (k a) Q R) R s := by
  unfold Wp
  rcases hrun : p s with ⟨o, t⟩
  cases o with
  | returned a => rw [Prog.bind_of_returned hrun]
  | thrown e => rw [Prog.bind_of_thrown hrun]
  | diverged => rw [Prog.bind_of_diverged hrun]

theorem wp_congr {Q' : α → σ → Prop} {R' : ε → σ → Prop} (hQ : ∀ a t, Q a t ↔ Q' a t)
    (hR : ∀ e t, R e t ↔ R' e t) : Wp p Q R s ↔ Wp p Q' R' s := by
  unfold Wp
  rcases p s with ⟨o, t⟩
  cases o with
  | returned a => exact hQ a t
  | thrown e => exact hR e t
  | diverged => exact Iff.rfl

theorem wp_of_keeps {F : Frame σ} (hp : F.Keeps p) (hQ : ∀ a t, F.rel s t → Q a t)
    (hR : ∀ e t, F.rel s t → R e t) : Wp p Q R s := by
  have hrel := hp s
  unfold Wp
  rcases hrun : p s with ⟨o, t⟩
  rw [hrun] at hrel
  cases o with
  | returned a => exact hQ a t hrel
  | thrown e => exact hR e t hrel
  | diverged => trivial

theorem wp_mono {Q' : α → σ → Prop} {R' : ε → σ → Prop} (h : Wp p Q R s)
    (hQ : ∀ a t, Q a t → Q' a t) (hR : ∀ e t, R e t → R' e t) : Wp p Q' R' s := by
  unfold Wp at h ⊢
  generalize p s = r at h ⊢
  obtain ⟨o, t⟩ := r
  cases o with
  | returned a => exact hQ a t h
  | thrown e => exact hR e t h
  | diverged => trivial

theorem wp_returned {a : α} {t : σ} (h : Wp p Q R s) (hrun : p s = (.returned a, t)) : Q a t := by
  unfold Wp at h
  rwa [hrun] at h

theorem wp_thrown {e : ε} {t : σ} (h : Wp p Q R s) (hrun : p s = (.thrown e, t)) : R e t := by
  unfold Wp at h
  rwa [hrun] at h

theorem wp_ite {c : Prop} [Decidable c] {q : Prog σ ε α} :
    Wp (if c then p else q) Q R s ↔ if c then Wp p Q R s else Wp q Q R s := by
  split <;> rfl

theorem wp_runIf {Q : Unit → σ → Prop} (b : Bool) (p : Prog σ ε Unit) :
    Wp (Prog.runIf b p) Q R s ↔ if b then Wp p Q R s else Q () s := by
  cases b <;> exact Iff.rfl

theorem ite_iff {c p p' q q' : Prop} [Decidable c] (hp : c → (p ↔ p')) (hq : ¬ c → (q ↔ q')) :
    (if c then p else q) ↔ if c then p' else q' := by
  split
  · next h => exact hp h
  · next h => exact hq h

theorem ite_or_iff {a b : Bool} {p q : Prop} :
    (if a then p else if b then p else q) ↔ if a || b then p else q := by
  cases a <;> simp

theorem wp_attempt {Q : Except ε α → σ → Prop} :
    Wp p.attempt Q R s ↔ Wp p (fun a => Q (.ok a)) (fun e => Q (.error e)) s := by
  unfold Wp Prog.attempt
  rcases hrun : p s with ⟨o, t⟩
  cases o <;> rfl

theorem wp_lastly {q : Prog σ ε Unit} : Wp (p.lastly q) Q R s ↔
    Wp p (fun a => Wp q (fun _ => Q a) R) (fun e => Wp q (fun _ => R e) R) s := by
  unfold Wp Prog.lastly
  rcases hrun : p s with ⟨o, t⟩
  cases o with
  | diverged => rfl
  | returned a =>
    simp only
    rcases hlast : q t with ⟨o', u⟩
    cases o' <;> rfl
  | thrown e =>
    simp only
    rcases hlast : q t with ⟨o', u⟩
    cases o' <;> rfl

-- the program throws
def Fails (p : Prog σ ε α) (s : σ) : Prop := ∃ e t, p s = (.thrown e, t)

theorem not_fails_pure (a : α) : ¬ Fails (pure a : Prog σ ε α) s := by
  rintro ⟨e, t, h⟩
  cases h

theorem fails_bind_iff {k : α → Prog σ ε β} :
    Fails (p >>= k) s ↔ Fails p s ∨ ∃ a t, p s = (.returned a, t) ∧ Fails (k a) t := by
  constructor
  · rintro ⟨e, u, h⟩
    rcases hrun : p s with ⟨o, t⟩
    cases o with
    | thrown e => exact .inl ⟨e, t, hrun⟩
    | returned a =>
      rw [Prog.bind_of_returned hrun] at h
      exact .inr ⟨a, t, rfl, e, u, h⟩
    | diverged =>
      rw [Prog.bind_of_diverged hrun] at h
      cases h
  · rintro (⟨e, t, hrun⟩ | ⟨a, t, hrun, e, u, h⟩)
    · exact ⟨e, t, Prog.bind_of_thrown hrun⟩
    · exact ⟨e, u, (Prog.bind_of_returned hrun).trans h⟩

theorem fails_attempt_iff {k : Except ε α → Prog σ ε β} :
    Fails (p.attempt >>= k) s ↔ (∃ a t, p s = (.returned a, t) ∧ Fails (k (.ok a)) t) ∨
      ∃ e t, p s = (.thrown e, t) ∧ Fails (k (.error e)) t := by
  rw [fails_bind_iff, or_iff_right]
  · constructor
    · rintro ⟨r, t, hrun, h⟩
      cases r with
      | ok a => exact .inl ⟨a, t, Prog.attempt_ok.mp hrun, h⟩
      | error e => exact .inr ⟨e, t, Prog.attempt_error.mp hrun, h⟩
    · rintro (⟨a, t, hrun, h⟩ | ⟨e, t, hrun, h⟩)
      · exact ⟨.ok a, t, Prog.attempt_ok.mpr hrun, h⟩
      · exact ⟨.error e, t, Prog.attempt_error.mpr hrun, h⟩
  · rintro ⟨e, t, h⟩
    unfold Prog.attempt at h
    split at h <;> cases h

end Weakest

end Program
