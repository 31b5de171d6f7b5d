import Mathlib.Data.List.Basic
import Mathlib.Order.Defs.LinearOrder
import Mathlib.Order.Lattice

namespace Restarts

variable {α κ : Type} [LinearOrder κ]

-- the position of the first entry whose key is not smaller
def seek (key : α → κ) (items : List α) (k : κ) : Nat :=
  items.findIdx fun b => decide (k ≤ key b)

-- a reader that is told only the key of the first entry it has not seen goes on from there
def restart (key : α → κ) (items : List α) (n : Nat) : Nat :=
  match items[n]? with
  | none => n
  | some a => seek key items (key a)

def offset (size : Nat → Nat) : Nat → Nat → Nat
  | _, 0 => 0
  | i, k + 1 => size i + offset size (i + 1) k

-- page i of what follows position p, and then the pages after it
def pagesFrom (key : α → κ) (items : List α) (size : Nat → Nat) :
    Nat → Nat → Nat → Option (List α)
  | 0, _, _ => none
  | n + 1, i, p =>
    if p + size i < items.length then
      (pagesFrom key items size n (i + 1) (restart key items (p + size i))).map
        fun rest => (items.drop p).take (size i) ++ rest
    else some ((items.drop p).take (size i))

def Undisturbed (key : α → κ) (items : List α) (size : Nat → Nat) (i p : Nat) : Prop :=
  ∀ k, p + offset size i (k + 1) < items.length →
    restart key items (p + offset size i (k + 1)) = p + offset size i (k + 1)

variable {key : α → κ} {items out : List α} {size : Nat → Nat} {n i p : Nat}

section Restart

variable {a b : α}

theorem restart_of_getElem (h : items[n]? = some a) :
    restart key items n = seek key items (key a) := by
  simp only [restart, h]

theorem restart_le (key : α → κ) (items : List α) (n : Nat) : restart key items n ≤ n := by
  cases ha : items[n]? with
  | none => simp only [restart, ha, Nat.le_refl]
  | some a =>
    obtain ⟨hlt, hget⟩ := List.getElem?_eq_some_iff.mp ha
    rw [restart_of_getElem ha]
    refine Nat.not_lt.mp fun hseek => ?_
    have hfalse := List.not_of_lt_findIdx hseek
    rw [hget] at hfalse
    exact absurd (le_refl (key a)) (of_decide_eq_false hfalse)

theorem restart_succ_iff (hsorted : items.Pairwise fun a b => key a ≤ key b)
    (ha : items[n]? = some a) (hb : items[n + 1]? = some b) :
    restart key items (n + 1) = n + 1 ↔ key a < key b := by
  obtain ⟨hlt, hbget⟩ := List.getElem?_eq_some_iff.mp hb
  obtain ⟨hlt', haget⟩ := List.getElem?_eq_some_iff.mp ha
  rw [restart_of_getElem hb, seek, List.findIdx_eq hlt, hbget]
  constructor
  · rintro ⟨-, hbefore⟩
    have hfalse := hbefore n (Nat.lt_succ_self n)
    rw [haget] at hfalse
    exact not_le.mp (of_decide_eq_false hfalse)
  · intro hkey
    refine ⟨decide_eq_true (le_refl _), fun j hj => decide_eq_false (not_le.mpr ?_)⟩
    refine lt_of_le_of_lt ?_ hkey
    rcases Nat.lt_or_eq_of_le (Nat.lt_succ_iff.mp hj) with hjn | rfl
    · exact haget ▸ List.pairwise_iff_getElem.mp hsorted j n _ hlt' hjn
    · exact haget ▸ le_refl _

end Restart

section Collecting

theorem offset_pos (hsize : ∀ j, 0 < size j) (i k : Nat) : 0 < offset size i (k + 1) :=
  Nat.lt_of_lt_of_le (hsize i) (Nat.le_add_right _ _)

theorem pagesFrom_length (h : pagesFrom key items size n i p = some out) :
    items.length - p ≤ out.length := by
  induction n generalizing i p out with
  | zero => cases h
  | succ n ih =>
    rw [pagesFrom] at h
    split at h
    · obtain ⟨rest, hrest, rfl⟩ := Option.map_eq_some_iff.mp h
      have hlen := ih hrest
      have hback := restart_le key items (p + size i)
      simp only [List.length_append, List.length_take, List.length_drop]
      omega
    · cases h
      simp only [List.length_take, List.length_drop]
      omega

-- a page that starts before the end of the last one makes the whole longer than what was to be read
theorem undisturbed_of_pagesFrom (h : pagesFrom key items size n i p = some out)
    (hlen : out.length = items.length - p) : Undisturbed key items size i p := by
  induction n generalizing i p out with
  | zero => cases h
  | succ n ih =>
    rw [pagesFrom] at h
    intro k hk
    rw [offset] at hk
    split at h
    · next hlt =>
      obtain ⟨rest, hrest, rfl⟩ := Option.map_eq_some_iff.mp h
      have hrestlen := pagesFrom_length hrest
      have hback := restart_le key items (p + size i)
      simp only [List.length_append, List.length_take, List.length_drop] at hlen
      have hstay : restart key items (p + size i) = p + size i := by omega
      cases k with
      | zero => simpa only [offset, Nat.add_zero] using hstay
      | succ k =>
        rw [hstay] at hrest
        have hnext := ih hrest (by omega) k (by omega)
        rw [offset, ← Nat.add_assoc]
        exact hnext
    · omega

theorem pagesFrom_of_undisturbed (hsize : ∀ j, 0 < size j) (h : Undisturbed key items size i p)
    (hn : items.length - p < n) : pagesFrom key items size n i p = some (items.drop p) := by
  induction n generalizing i p with
  | zero => omega
  | succ n ih =>
    rw [pagesFrom]
    have hpos := hsize i
    split
    · next hlt =>
      have hstay : restart key items (p + size i) = p + size i := h 0 hlt
      have hnext : Undisturbed key items size (i + 1) (p + size i) := by
        intro k hk
        have hk' := h (k + 1) (by rw [offset]; omega)
        rw [offset, ← Nat.add_assoc] at hk'
        exact hk'
      rw [hstay, ih hnext (by omega), Option.map_some, ← List.drop_drop, List.take_append_drop]
    · rw [List.take_of_length_le (by rw [List.length_drop]; omega)]

theorem pagesFrom_once_iff (hsize : ∀ j, 0 < size j) :
    (∃ n out, pagesFrom key items size n i p = some out ∧ out.Perm (items.drop p)) ↔
      Undisturbed key items size i p := by
  constructor
  · rintro ⟨n, out, hout, hperm⟩
    exact undisturbed_of_pagesFrom hout (by rw [hperm.length_eq, List.length_drop])
  · intro h
    exact ⟨items.length - p + 1, _, pagesFrom_of_undisturbed hsize h (Nat.lt_succ_self _),
      List.Perm.refl _⟩

end Collecting

end Restarts
