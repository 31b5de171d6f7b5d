import Mathlib.Data.List.Nodup
import Mathlib.Logic.Function.Basic
import Iasql.Calculus.Runs

namespace Interleaving

open Runs

variable {ι P S : Type}

-- clients at their own phases over one store
structure System (ι P S : Type) where
  store : S
  phase : ι → P

def serial (alone : ι → S → S) (store : S) (order : List ι) : S :=
  order.foldl (fun s i => alone i s) store

theorem serial_snoc {alone : ι → S → S} {s : S} {order : List ι} {i : ι} :
    serial alone s (order ++ [i]) = alone i (serial alone s order) := by
  simp [serial]

variable [DecidableEq ι]

def turn (step : ι → P → S → P × S) (sys : System ι P S) (i : ι) : System ι P S :=
  let (p, store) := step i (sys.phase i) sys.store
  { store, phase := Function.update sys.phase i p }

def interleave (step : ι → P → S → P × S) (sys : System ι P S) (schedule : List ι) :
    System ι P S :=
  schedule.foldl (turn step) sys

variable {step : ι → P → S → P × S} {alone : ι → S → S} {committed : ι → P → Prop}
  {Sim : (ι → P) → S → S → Prop} {ok : System ι P S → ι → Prop} {sys t : System ι P S}

-- what one turn may do to the store that the committed clients alone would leave
inductive Turned (step : ι → P → S → P × S) (alone : ι → S → S) (committed : ι → P → Prop)
    (Sim : (ι → P) → S → S → Prop) (sys : System ι P S) (i : ι) (u : S) : Prop
  | silent (hsim : Sim (turn step sys i).phase (turn step sys i).store u)
      (hsame : committed i ((turn step sys i).phase i) ↔ committed i (sys.phase i))
  | commit (hsim : Sim (turn step sys i).phase (turn step sys i).store (alone i u))
      (hbefore : ¬committed i (sys.phase i)) (hafter : committed i ((turn step sys i).phase i))

theorem turn_phase_ne {i j : ι} (h : j ≠ i) : (turn step sys i).phase j = sys.phase j :=
  Function.update_of_ne h _ _

theorem linearized {sys₀ : System ι P S} (h₀ : Sim sys₀.phase sys₀.store sys₀.store)
    (hnone : ∀ i, ¬committed i (sys₀.phase i))
    (hturn : ∀ sys i u, Sim sys.phase sys.store u → ok sys i →
      Turned step alone committed Sim sys i u)
    (h : RunFrom (· = sys₀) (fun sys i t => t = turn step sys i) ok sys) :
    ∃ order : List ι, order.Nodup ∧ (∀ i, i ∈ order ↔ committed i (sys.phase i)) ∧
      Sim sys.phase sys.store (serial alone sys₀.store order) := by
  refine RunFrom.invariant (I := fun sys => ∃ order : List ι, order.Nodup ∧
    (∀ i, i ∈ order ↔ committed i (sys.phase i)) ∧
    Sim sys.phase sys.store (serial alone sys₀.store order)) h ?_ ?_
  · rintro _ rfl
    exact ⟨[], List.nodup_nil, fun i => by simp [hnone i], h₀⟩
  · rintro sys i _ ⟨order, hnodup, hmem, hsim⟩ hok rfl
    cases hturn sys i _ hsim hok with
    | silent hsim' hsame =>
      refine ⟨order, hnodup, fun j => ?_, hsim'⟩
      obtain rfl | hj := eq_or_ne j i
      · rw [hsame, hmem]
      · rw [turn_phase_ne hj, hmem]
    | commit hsim' hbefore hafter =>
      have hfresh : i ∉ order := fun hi => hbefore ((hmem i).mp hi)
      refine ⟨order ++ [i], hnodup.append (List.nodup_singleton i) (by simpa using hfresh),
        fun j => ?_, serial_snoc ▸ hsim'⟩
      obtain rfl | hj := eq_or_ne j i
      · simp [hafter]
      · simp [turn_phase_ne hj, hmem, hj]

end Interleaving
