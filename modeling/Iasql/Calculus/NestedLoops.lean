import Iasql.Calculus.Halting
import Mathlib.Logic.Function.Iterate

namespace Program

open Prog

-- a loop whose every turn enters a loop of its own
structure Nested (σ ε κ β ρ : Type) where
  enter : Prog σ ε κ
  reset : β → β
  turn : κ → β → Prog σ ε (Turn β ρ)
  resume : β → Bool

namespace Nested

variable {σ ε κ β ρ : Type} (L : Nested σ ε κ β ρ)

def afterInner : β ⊕ ρ → Prog σ ε (Turn β ρ)
  | .inl b => return (if L.resume b then .again b else .leave b)
  | .inr r => return .quit r

def outerTurn (fuel : Nat) (b : β) : Prog σ ε (Turn β ρ) := do
  let k ← L.enter
  let left ← doWhile (L.turn k) fuel (L.reset b)
  L.afterInner left

-- a position is the beginning of a turn of the inner loop
def start (b : β) (s : σ) : Option (κ × β × σ) :=
  match L.enter s with
  | (.returned k, t) => some (k, L.reset b, t)
  | _ => none

-- the next position, in whichever loop it is
def round (p : κ × β × σ) : Option (κ × β × σ) :=
  match L.turn p.1 p.2.1 p.2.2 with
  | (.returned (.again b), t) => some (p.1, b, t)
  | (.returned (.leave b), t) => if L.resume b then L.start b t else none
  | _ => none

def step (o : Option (κ × β × σ)) : Option (κ × β × σ) := o.bind L.round

def rounds (b : β) (s : σ) (n : Nat) : Option (κ × β × σ) := L.step^[n] (L.start b s)

-- what is left of both loops at a position
def rest (fuel outer inner : Nat) (p : κ × β × σ) : Outcome ε (β ⊕ ρ) × σ :=
  (doWhile (L.turn p.1) inner p.2.1 >>= fun left => L.afterInner left >>= fun turn =>
    match turn with
    | .again b => doWhile (L.outerTurn fuel) outer b
    | .leave b => pure (.inl b)
    | .quit r => pure (.inr r)) p.2.2

-- how both loops come to an end from a position: the last turn throws, quits or leaves, or the
-- next loop is never entered
inductive LeavesFrom (o : Option (κ × β × σ)) : Outcome ε (β ⊕ ρ) × σ → Prop
  | thrown {n p e t} (place : L.step^[n] o = some p)
      (turn : L.turn p.1 p.2.1 p.2.2 = (.thrown e, t)) : LeavesFrom o (.thrown e, t)
  | quit {n p r t} (place : L.step^[n] o = some p)
      (turn : L.turn p.1 p.2.1 p.2.2 = (.returned (.quit r), t)) :
      LeavesFrom o (.returned (.inr r), t)
  | left {n p b t} (place : L.step^[n] o = some p)
      (turn : L.turn p.1 p.2.1 p.2.2 = (.returned (.leave b), t)) (done : L.resume b = false) :
      LeavesFrom o (.returned (.inl b), t)
  | again {n p b t e u} (place : L.step^[n] o = some p)
      (turn : L.turn p.1 p.2.1 p.2.2 = (.returned (.leave b), t)) (resume : L.resume b = true)
      (enter : L.enter t = (.thrown e, u)) : LeavesFrom o (.thrown e, u)

-- from the beginning: the first loop is never entered, or it is
inductive Leaves (b : β) (s : σ) : Outcome ε (β ⊕ ρ) × σ → Prop
  | first {e t} (enter : L.enter s = (.thrown e, t)) : Leaves b s (.thrown e, t)
  | later {r} (h : L.LeavesFrom (L.start b s) r) : Leaves b s r

variable {L} {b b' : β} {s t : σ} {k : κ} {o : Option (κ × β × σ)} {p q : κ × β × σ}
  {fuel outer inner n : Nat}

theorem rounds_succ (b : β) (s : σ) (n : Nat) :
    L.rounds b s (n + 1) = (L.rounds b s n).bind L.round :=
  Function.iterate_succ_apply' L.step n _

theorem outer_of_start (h : L.start b s = some p) :
    doWhile (L.outerTurn fuel) (outer + 1) b s = L.rest fuel outer fuel p := by
  unfold start at h
  split at h
  · next k t henter =>
    cases h
    rw [doWhile_succ, outerTurn, bind_assoc_apply, bind_of_returned henter, bind_assoc_apply]
    rfl
  · cases h

theorem outer_of_not_start (henter : Halts L.enter) (h : L.start b s = none) :
    (doWhile (L.outerTurn fuel) (outer + 1) b s).1 ≠ .diverged := by
  unfold start at h
  rw [doWhile_succ, outerTurn, bind_assoc_apply]
  rcases hrun : L.enter s with ⟨o, t⟩
  cases o with
  | returned k =>
    rw [hrun] at h
    cases h
  | thrown e =>
    rw [bind_of_thrown hrun]
    exact fun heq => by cases heq
  | diverged => exact absurd (by rw [hrun]) (henter s)

theorem rest_cases (hturn : ∀ k b, Halts (L.turn k b)) (p : κ × β × σ) :
    (∃ q, L.round p = some q ∧ L.rest fuel outer (inner + 1) p = L.rest fuel outer inner q) ∨
      (∃ b t, L.round p = L.start b t ∧
        L.rest fuel outer (inner + 1) p = doWhile (L.outerTurn fuel) outer b t) ∨
      L.round p = none ∧ (L.rest fuel outer (inner + 1) p).1 ≠ .diverged := by
  unfold rest round
  rw [doWhile_succ, bind_assoc_apply]
  rcases hrun : L.turn p.1 p.2.1 p.2.2 with ⟨o, t⟩
  cases o with
  | thrown e =>
    rw [bind_of_thrown hrun]
    exact .inr (.inr ⟨rfl, fun heq => by cases heq⟩)
  | diverged => exact absurd (by rw [hrun]) (hturn p.1 p.2.1 p.2.2)
  | returned turn =>
    rw [bind_of_returned hrun]
    cases turn with
    | again b => exact .inl ⟨(p.1, b, t), rfl, rfl⟩
    | quit r => exact .inr (.inr ⟨rfl, fun heq => by cases heq⟩)
    | leave b =>
      cases hresume : L.resume b with
      | true =>
        refine .inr (.inl ⟨b, t, by simp [hresume], ?_⟩)
        simp [afterInner, hresume, pure_bind_apply]
      | false =>
        refine .inr (.inr ⟨by simp [hresume], ?_⟩)
        simp only [pure_bind_apply, afterInner, hresume]
        exact fun heq => by cases heq

section Ending

variable (hturn : ∀ k b, Halts (L.turn k b))

include hturn

theorem rest_ends (henter : Halts L.enter) (hnone : L.step^[n + 1] (some p) = none)
    (hfuel : n < fuel) (houter : n < outer) (hinner : n < inner) :
    (L.rest fuel outer inner p).1 ≠ .diverged := by
  induction n generalizing p outer inner with
  | zero =>
    obtain ⟨inner, rfl⟩ := Nat.exists_eq_add_one_of_ne_zero (Nat.ne_of_gt hinner)
    obtain ⟨outer, rfl⟩ := Nat.exists_eq_add_one_of_ne_zero (Nat.ne_of_gt houter)
    have hround : L.round p = none := hnone
    rcases rest_cases hturn p with ⟨q, hq, -⟩ | ⟨b, t, hstart, heq⟩ | ⟨-, hends⟩
    · rw [hround] at hq
      cases hq
    · rw [heq]
      exact outer_of_not_start henter (hstart ▸ hround)
    · exact hends
  | succ n ih =>
    obtain ⟨inner, rfl⟩ := Nat.exists_eq_add_one_of_ne_zero (Nat.ne_of_gt (Nat.zero_lt_of_lt hinner))
    obtain ⟨outer, rfl⟩ := Nat.exists_eq_add_one_of_ne_zero (Nat.ne_of_gt (Nat.zero_lt_of_lt houter))
    have hnext : L.step^[n + 1] (L.round p) = none := hnone
    rcases rest_cases hturn p with ⟨q, hq, heq⟩ | ⟨b, t, hstart, heq⟩ | ⟨-, hends⟩
    · rw [heq]
      exact ih (hq ▸ hnext) (by omega) (by omega) (by omega)
    · rw [heq]
      cases hq : L.start b t with
      | none => exact outer_of_not_start henter hq
      | some q =>
        rw [outer_of_start hq]
        exact ih (by rw [← hq, ← hstart]; exact hnext) (by omega) (by omega) (by omega)
    · exact hends

theorem rest_diverges (h : ∀ n, (L.step^[n] (some p)).isSome = true) :
    (L.rest fuel outer inner p).1 = .diverged := by
  induction outer generalizing p inner with
  | zero =>
    induction inner generalizing p with
    | zero => rfl
    | succ inner ih =>
      rcases rest_cases hturn p with ⟨q, hq, heq⟩ | ⟨b, t, -, heq⟩ | ⟨hnone, -⟩
      · rw [heq]
        exact ih fun n => hq ▸ h (n + 1)
      · rw [heq]
        rfl
      · have hsome := h 1
        rw [show L.step^[1] (some p) = L.round p from rfl, hnone] at hsome
        cases hsome
  | succ outer ihouter =>
    induction inner generalizing p with
    | zero => rfl
    | succ inner ih =>
      have hsome : (L.round p).isSome = true := h 1
      rcases rest_cases hturn p with ⟨q, hq, heq⟩ | ⟨b, t, hstart, heq⟩ | ⟨hnone, -⟩
      · rw [heq]
        exact ih fun n => hq ▸ h (n + 1)
      · obtain ⟨q, hq⟩ := Option.isSome_iff_exists.mp hsome
        rw [heq, outer_of_start (hstart ▸ hq)]
        exact ihouter fun n => hq ▸ h (n + 1)
      · rw [hnone] at hsome
        cases hsome

theorem diverges_iff (henter : Halts L.enter) :
    (∀ fuel, (doWhile (L.outerTurn fuel) fuel b s).1 = .diverged) ↔
      ∀ n, (L.rounds b s n).isSome = true := by
  constructor
  · intro h n
    by_contra hnone
    have hnone : L.rounds b s n = none := by simpa using hnone
    have hends := h (n + 1)
    cases hstart : L.start b s with
    | none => exact outer_of_not_start henter hstart hends
    | some p =>
      rw [outer_of_start hstart] at hends
      rw [rounds, hstart] at hnone
      cases n with
      | zero => cases hnone
      | succ n => exact rest_ends hturn henter hnone (by omega) (by omega) (by omega) hends
  · intro h fuel
    cases fuel with
    | zero => rfl
    | succ fuel =>
      obtain ⟨p, hp⟩ := Option.isSome_iff_exists.mp (h 0)
      have hstart : L.start b s = some p := hp
      rw [outer_of_start hstart]
      refine rest_diverges hturn fun n => ?_
      have hn := h n
      rwa [rounds, hstart] at hn

end Ending

section Leaving

variable {r r' : Outcome ε (β ⊕ ρ) × σ}

theorem LeavesFrom.before (h : L.LeavesFrom (L.step o) r) : L.LeavesFrom o r := by
  cases h with
  | @thrown n p e t place turn => exact .thrown (n := n + 1) place turn
  | @quit n p r t place turn => exact .quit (n := n + 1) place turn
  | @left n p b t place turn done => exact .left (n := n + 1) place turn done
  | @again n p b t e u place turn resume enter => exact .again (n := n + 1) place turn resume enter

theorem start_of_returned {t : σ} (h : L.enter s = (.returned k, t)) :
    L.start b s = some (k, L.reset b, t) := by
  rw [start, h]

theorem rest_leaves
    (houter : ∀ b s, (doWhile (L.outerTurn fuel) outer b s).1 ≠ .diverged →
      L.Leaves b s (doWhile (L.outerTurn fuel) outer b s))
    (hends : (L.rest fuel outer inner p).1 ≠ .diverged) :
    L.LeavesFrom (some p) (L.rest fuel outer inner p) := by
  induction inner generalizing p with
  | zero => exact absurd rfl hends
  | succ inner ih =>
    unfold rest at hends ⊢
    rw [doWhile_succ, bind_assoc_apply] at hends ⊢
    rcases hrun : L.turn p.1 p.2.1 p.2.2 with ⟨o, t⟩
    cases o with
    | thrown e =>
      rw [bind_of_thrown hrun]
      exact .thrown (n := 0) rfl hrun
    | diverged =>
      rw [bind_of_diverged hrun] at hends
      exact absurd rfl hends
    | returned turn =>
      rw [bind_of_returned hrun] at hends ⊢
      cases turn with
      | again b =>
        have hround : L.step (some p) = some (p.1, b, t) := by simp [step, round, hrun]
        exact LeavesFrom.before (hround ▸ ih (p := (p.1, b, t)) hends)
      | quit r => exact .quit (n := 0) rfl hrun
      | leave b =>
        cases hresume : L.resume b with
        | false =>
          have hdone := LeavesFrom.left (n := 0) rfl hrun hresume
          simpa [pure_bind_apply, afterInner, hresume] using hdone
        | true =>
          have hround : L.step (some p) = L.start b t := by simp [step, round, hrun, hresume]
          simp only [pure_bind_apply, afterInner, hresume, if_true] at hends ⊢
          have hleaves := houter b t hends
          generalize doWhile (L.outerTurn fuel) outer b t = r at hleaves
          cases hleaves with
          | first henter => exact .again (n := 0) rfl hrun hresume henter
          | later hlater => exact LeavesFrom.before (hround ▸ hlater)

-- however two nested loops end, they end at the position that no turn follows
theorem doWhile_leaves (hends : (doWhile (L.outerTurn fuel) outer b s).1 ≠ .diverged) :
    L.Leaves b s (doWhile (L.outerTurn fuel) outer b s) := by
  induction outer generalizing b s with
  | zero => exact absurd rfl hends
  | succ outer ih =>
    rcases henter : L.enter s with ⟨o, t⟩
    cases o with
    | returned k =>
      have hstart := start_of_returned (b := b) henter
      rw [outer_of_start hstart] at hends ⊢
      exact .later (hstart ▸ rest_leaves (fun b s => ih) hends)
    | thrown e =>
      rw [doWhile_succ, outerTurn, bind_assoc_apply, bind_of_thrown henter]
      exact .first henter
    | diverged =>
      rw [doWhile_succ, outerTurn, bind_assoc_apply, bind_of_diverged henter] at hends
      exact absurd rfl hends

theorem step_none (n : Nat) : L.step^[n] none = none := by
  induction n with
  | zero => rfl
  | succ n ih => exact ih

-- the place of the turn that is the last
theorem place_unique {m : Nat} (hp : L.step^[n] o = some p) (hq : L.step^[m] o = some q)
    (hlast : L.round p = none) (hlast' : L.round q = none) : p = q := by
  have hle : ∀ {n m : Nat} {p q : κ × β × σ}, L.step^[n] o = some p → L.step^[m] o = some q →
      L.round p = none → m ≤ n := by
    intro n m p q hp hq hlast
    by_contra hlt
    obtain ⟨k, rfl⟩ : ∃ k, m = k + (n + 1) := ⟨m - (n + 1), by omega⟩
    have hnext : L.step^[n + 1] o = none := by
      rw [Function.iterate_succ_apply', hp]
      exact hlast
    rw [Function.iterate_add_apply, hnext, step_none] at hq
    cases hq
  obtain rfl := Nat.le_antisymm (hle hq hp hlast') (hle hp hq hlast)
  exact Option.some.inj (hp.symm.trans hq)

-- what the last turn comes to
def after (L : Nested σ ε κ β ρ) (p : κ × β × σ) : Option (Outcome ε (β ⊕ ρ) × σ) :=
  match L.turn p.1 p.2.1 p.2.2 with
  | (.thrown e, t) => some (.thrown e, t)
  | (.returned (.quit r), t) => some (.returned (.inr r), t)
  | (.returned (.leave b), t) =>
    if L.resume b then
      match L.enter t with
      | (.thrown e, u) => some (.thrown e, u)
      | _ => none
    else some (.returned (.inl b), t)
  | _ => none

theorem LeavesFrom.last (h : L.LeavesFrom o r) :
    ∃ n p, L.step^[n] o = some p ∧ L.round p = none ∧ L.after p = some r := by
  cases h with
  | @thrown n p e t place turn => exact ⟨n, p, place, by simp [round, turn], by simp [after, turn]⟩
  | @quit n p r t place turn => exact ⟨n, p, place, by simp [round, turn], by simp [after, turn]⟩
  | @left n p b t place turn done =>
    exact ⟨n, p, place, by simp [round, turn, done], by simp [after, turn, done]⟩
  | @again n p b t e u place turn resume enter =>
    exact ⟨n, p, place, by simp [round, turn, resume, start, enter],
      by simp [after, turn, resume, enter]⟩

theorem leavesFrom_unique (h : L.LeavesFrom o r) (h' : L.LeavesFrom o r') : r = r' := by
  obtain ⟨n, p, hp, hlast, hr⟩ := h.last
  obtain ⟨m, q, hq, hlast', hr'⟩ := h'.last
  obtain rfl := place_unique hp hq hlast hlast'
  exact Option.some.inj (hr.symm.trans hr')

theorem leaves_unique (h : L.Leaves b s r) (h' : L.Leaves b s r') : r = r' := by
  have hnever : ∀ {e : ε} {t : σ} {r}, L.enter s = (.thrown e, t) →
      ¬ L.LeavesFrom (L.start b s) r := by
    intro e t r henter hlater
    obtain ⟨n, p, hp, -⟩ := hlater.last
    rw [start, henter, step_none] at hp
    cases hp
  cases h with
  | first henter =>
    cases h' with
    | first henter' =>
      obtain ⟨heq, rfl⟩ := Prod.mk.inj (henter.symm.trans henter')
      obtain rfl := Outcome.thrown.inj heq
      rfl
    | later hlater => exact absurd hlater (hnever henter)
  | later hlater =>
    cases h' with
    | first henter => exact absurd hlater (hnever henter)
    | later hlater' => exact leavesFrom_unique hlater hlater'

end Leaving

end Nested

end Program
