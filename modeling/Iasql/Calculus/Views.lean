import Mathlib.Data.List.Perm.Basic
import Mathlib.Tactic.Common

namespace Views

variable {α β γ : Type}

-- the same elements in some order, each list seen through its own view
def Agree (f : α → γ) (g : β → γ) (l : List α) (m : List β) : Prop := (l.map f).Perm (m.map g)

variable {f : α → γ} {g : β → γ} {l l' : List α} {m m' : List β}

theorem Agree.append (h : Agree f g l m) (h' : Agree f g l' m') :
    Agree f g (l ++ l') (m ++ m') := by
  have hboth := List.Perm.append h h'
  rwa [← List.map_append, ← List.map_append] at hboth

theorem Agree.filter {p : α → Bool} {q : β → Bool} (on : γ → Bool) (hp : ∀ a, on (f a) = p a)
    (hq : ∀ b, on (g b) = q b) (h : Agree f g l m) : Agree f g (l.filter p) (m.filter q) := by
  have hfilter := List.Perm.filter on h
  rw [List.filter_map, List.filter_map] at hfilter
  have hleft : on ∘ f = p := funext hp
  have hright : on ∘ g = q := funext hq
  rwa [hleft, hright] at hfilter

theorem Agree.map {u : α → α} {v : β → β} (on : γ → γ) (hu : ∀ a, f (u a) = on (f a))
    (hv : ∀ b, g (v b) = on (g b)) (h : Agree f g l m) : Agree f g (l.map u) (m.map v) := by
  have hmap := List.Perm.map on h
  rw [List.map_map, List.map_map] at hmap
  have hleft : on ∘ f = f ∘ u := funext fun a => (hu a).symm
  have hright : on ∘ g = g ∘ v := funext fun b => (hv b).symm
  rw [hleft, hright] at hmap
  rwa [Agree, List.map_map, List.map_map]

theorem Agree.perm {n : List β} (h : Agree f g l m) (hn : m.Perm n) : Agree f g l n :=
  h.trans (hn.map g)

theorem Agree.congr {δ : Type} {g' : δ → γ} {n : List δ} (h : Agree f g l m)
    (hn : m.map g = n.map g') : Agree f g' l n := by
  rwa [Agree, ← hn]

theorem eraseIdx_perm {i : Nat} {b : β} (h : m[i]? = some b) : (m.eraseIdx i ++ [b]).Perm m := by
  obtain ⟨hi, rfl⟩ := List.getElem?_eq_some_iff.mp h
  exact List.perm_append_comm.trans (List.getElem_cons_eraseIdx_perm hi)

theorem map_set_view {i : Nat} {a b : β} {u : β → β} (h : m[i]? = some a) (ha : g (u b) = g a)
    (hrest : ∀ j c, j ≠ i → m[j]? = some c → g (u c) = g c) :
    ((m.set i b).map u).map g = m.map g := by
  apply List.ext_getElem?
  intro j
  simp only [List.getElem?_map, List.getElem?_set]
  split
  · next hj =>
    subst hj
    obtain ⟨hi, rfl⟩ := List.getElem?_eq_some_iff.mp h
    simp [hi, ha]
  · next hj =>
    cases hm : m[j]? with
    | none => simp
    | some c => simp [hrest j c (Ne.symm hj) hm]

theorem filter_eq_eraseIdx {p : β → Bool} {i : Nat} {a : β} (h : m[i]? = some a)
    (ha : p a = false) (hrest : ∀ j c, j ≠ i → m[j]? = some c → p c = true) :
    m.filter p = m.eraseIdx i := by
  induction m generalizing i with
  | nil => rfl
  | cons b m ih =>
    cases i with
    | zero =>
      obtain rfl : b = a := by simpa using h
      have hall : m.filter p = m := List.filter_eq_self.mpr fun c hc => by
        obtain ⟨j, hj⟩ := List.mem_iff_getElem?.mp hc
        exact hrest (j + 1) c (by omega) hj
      simp [ha, hall]
    | succ i =>
      have hb : p b = true := hrest 0 b (by omega) rfl
      have htail := ih h fun j c hj hc => hrest (j + 1) c (by omega) hc
      simp [hb, htail]

theorem map_eq_set {u : β → β} {i : Nat} {a b : β} (h : m[i]? = some a) (ha : u a = b)
    (hrest : ∀ j c, j ≠ i → m[j]? = some c → u c = c) : m.map u = m.set i b := by
  apply List.ext_getElem?
  intro j
  rw [List.getElem?_map, List.getElem?_set]
  split
  · next hj =>
    subst hj
    obtain ⟨hi, rfl⟩ := List.getElem?_eq_some_iff.mp h
    simp [hi, ha]
  · next hj =>
    cases hm : m[j]? with
    | none => rfl
    | some c => simp [hrest j c (Ne.symm hj) hm]

end Views
