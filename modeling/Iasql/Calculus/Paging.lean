import Mathlib.Data.List.Basic
import Mathlib.Data.List.Nodup

namespace Paging

-- a listing in the fixed order of its keys, whose entries come and go with time
structure Shelf (κ α : Type) where
  keys : List κ
  nodup : keys.Nodup
  held : Nat → κ → Option α
  pageSize : Nat → Nat
  pageSize_pos : ∀ t, 0 < pageSize t

namespace Shelf

variable {κ α : Type} (shelf : Shelf κ α)

def present (t : Nat) (ks : List κ) : List (κ × α) :=
  ks.filterMap fun k => (shelf.held t k).map fun a => (k, a)

section Present

variable {shelf} {t : Nat} {k : κ} {ks : List κ}

theorem present_cons_none (h : shelf.held t k = none) :
    shelf.present t (k :: ks) = shelf.present t ks := by simp [present, h]

theorem present_cons_some {a : α} (h : shelf.held t k = some a) :
    shelf.present t (k :: ks) = (k, a) :: shelf.present t ks := by simp [present, h]

theorem mem_present {a : α} :
    (k, a) ∈ shelf.present t ks ↔ k ∈ ks ∧ shelf.held t k = some a := by
  simp only [present, List.mem_filterMap, Option.map_eq_some_iff, Prod.mk.injEq]
  constructor
  · rintro ⟨l, hl, b, hb, rfl, rfl⟩
    exact ⟨hl, hb⟩
  · rintro ⟨hk, ha⟩
    exact ⟨k, hk, a, ha, rfl, rfl⟩

theorem present_keys_sublist (t : Nat) (ks : List κ) :
    ((shelf.present t ks).map Prod.fst).Sublist ks := by
  induction ks with
  | nil => exact List.Sublist.slnil
  | cons k ks ih =>
    cases h : shelf.held t k with
    | none => rw [present_cons_none h]; exact ih.cons k
    | some a => rw [present_cons_some h]; exact ih.cons_cons k

theorem take_present {m : Nat} {a : α}
    (h : ((shelf.present t ks).take m).getLast? = some (k, a)) :
    ∃ before rest, ks = before ++ k :: rest ∧
      (shelf.present t ks).take m = shelf.present t (before ++ [k]) := by
  induction ks generalizing m with
  | nil => simp [present] at h
  | cons l ks ih =>
    cases hl : shelf.held t l with
    | none =>
      rw [present_cons_none hl] at h ⊢
      obtain ⟨before, rest, rfl, htake⟩ := ih h
      exact ⟨l :: before, rest, rfl, by rw [htake, List.cons_append, present_cons_none hl]⟩
    | some b =>
      rw [present_cons_some hl] at h ⊢
      cases m with
      | zero => simp at h
      | succ m =>
        rw [List.take_succ_cons] at h ⊢
        cases hrest : (shelf.present t ks).take m with
        | nil =>
          rw [hrest] at h
          obtain ⟨rfl, rfl⟩ : l = k ∧ b = a := by simpa using h
          exact ⟨[], ks, rfl, by simp [present, hl]⟩
        | cons p ps =>
          have hlast : ((shelf.present t ks).take m).getLast? = some (k, a) := by
            rw [hrest] at h ⊢
            simpa using h
          obtain ⟨before, rest, rfl, htake⟩ := ih hlast
          exact ⟨l :: before, rest, rfl, by
            rw [← hrest, htake, List.cons_append, present_cons_some hl]⟩

end Present

variable [DecidableEq κ]

-- the token of a page is the last key it showed
def after : Option κ → List κ
  | none => shelf.keys
  | some k => (shelf.keys.dropWhile (· ≠ k)).tail

def shown (t : Nat) (token : Option κ) : List (κ × α) :=
  (shelf.present t (shelf.after token)).take (shelf.pageSize t)

def next (t : Nat) (token : Option κ) : Option κ :=
  if (shelf.present t (shelf.after token)).length ≤ shelf.pageSize t then none
  else (shelf.shown t token).getLast?.map Prod.fst

-- what following the tokens collects, a page at each moment, and the moment after the last
def collect : Nat → Nat → Option κ → Option (List (κ × α) × Nat)
  | 0, _, _ => none
  | n + 1, t, token =>
    match shelf.next t token with
    | none => some (shelf.shown t token, t + 1)
    | some k => (collect n (t + 1) (some k)).map fun p => (shelf.shown t token ++ p.1, p.2)

variable {shelf} {t u n : Nat} {token : Option κ} {k : κ}

theorem after_of_append {before rest : List κ} (h : shelf.keys = before ++ k :: rest) :
    shelf.after (some k) = rest := by
  have hk : k ∉ before := by
    have hnodup := shelf.nodup
    rw [h, List.nodup_append] at hnodup
    exact fun hmem => hnodup.2.2 k hmem k (by simp) rfl
  have hbefore : ∀ l ∈ before, decide (l ≠ k) = true := by
    intro l hl
    exact decide_eq_true fun heq => hk (heq ▸ hl)
  rw [after, h, List.dropWhile_append_of_pos hbefore]
  simp

theorem after_suffix (token : Option κ) : shelf.after token <:+ shelf.keys := by
  cases token with
  | none => exact List.suffix_refl _
  | some k => exact (List.tail_suffix _).trans (List.dropWhile_suffix _)

theorem shown_keys_nodup (t : Nat) (token : Option κ) :
    ((shelf.shown t token).map Prod.fst).Nodup := by
  have hsub : ((shelf.shown t token).map Prod.fst).Sublist shelf.keys :=
    ((List.take_sublist _ _).map Prod.fst).trans
      ((present_keys_sublist t _).trans (after_suffix token).sublist)
  exact hsub.nodup shelf.nodup

theorem shown_held {a : α} (h : (k, a) ∈ shelf.shown t token) : shelf.held t k = some a :=
  (mem_present.mp (List.mem_of_mem_take h)).2

theorem next_none (h : shelf.next t token = none) :
    shelf.shown t token = shelf.present t (shelf.after token) := by
  unfold next at h
  split at h
  · next hle => exact List.take_of_length_le hle
  · next hlt =>
    have hne : (shelf.shown t token).length ≠ 0 := by
      have := shelf.pageSize_pos t
      simp only [shown, List.length_take]
      omega
    cases hs : shelf.shown t token with
    | nil => simp [hs] at hne
    | cons p ps => simp [hs] at h

theorem next_some (h : shelf.next t token = some k) :
    ∃ before, shelf.after token = before ++ k :: shelf.after (some k) ∧
      shelf.shown t token = shelf.present t (before ++ [k]) := by
  unfold next at h
  split at h
  · cases h
  · obtain ⟨⟨l, a⟩, hlast, rfl⟩ := Option.map_eq_some_iff.mp h
    obtain ⟨before, rest, hafter, hshown⟩ := take_present hlast
    obtain ⟨pre, hpre⟩ := @after_suffix _ _ shelf _ token
    have hkeys : shelf.keys = (pre ++ before) ++ l :: rest := by
      rw [← hpre, hafter, List.append_assoc]
    exact ⟨before, by rw [after_of_append hkeys, hafter], hshown⟩

structure Complete (shelf : Shelf κ α) (t u : Nat) (token : Option κ) (out : List (κ × α)) :
    Prop where
  moves : t < u
  sublist : (out.map Prod.fst).Sublist (shelf.after token)
  held : ∀ k a, (k, a) ∈ out → ∃ v, t ≤ v ∧ v < u ∧ shelf.held v k = some a
  every : ∀ k ∈ shelf.after token, (∀ v, t ≤ v → v < u → (shelf.held v k).isSome = true) →
    k ∈ out.map Prod.fst

theorem collect_complete {out : List (κ × α)} (h : shelf.collect n t token = some (out, u)) :
    shelf.Complete t u token out := by
  induction n generalizing t token out with
  | zero => cases h
  | succ n ih =>
    rw [collect] at h
    cases hnext : shelf.next t token with
    | none =>
      rw [hnext] at h
      obtain ⟨rfl, rfl⟩ := Prod.mk.inj (Option.some.inj h)
      rw [next_none hnext]
      refine ⟨Nat.lt_succ_self t, present_keys_sublist t _, fun k a hmem => ?_, fun k hk hheld => ?_⟩
      · exact ⟨t, Nat.le_refl t, Nat.lt_succ_self t, (mem_present.mp hmem).2⟩
      · obtain ⟨a, ha⟩ := Option.isSome_iff_exists.mp (hheld t (Nat.le_refl t) (Nat.lt_succ_self t))
        exact List.mem_map.mpr ⟨(k, a), mem_present.mpr ⟨hk, ha⟩, rfl⟩
    | some l =>
      rw [hnext] at h
      obtain ⟨⟨rest, v⟩, hrest, heq⟩ := Option.map_eq_some_iff.mp h
      obtain ⟨rfl, rfl⟩ := Prod.mk.inj heq
      obtain ⟨before, hafter, hshown⟩ := next_some hnext
      have hih := ih hrest
      have hmoves := hih.moves
      rw [hshown]
      refine ⟨by omega, ?_, fun k a hmem => ?_, fun k hk hheld => ?_⟩
      · have hsplit : shelf.after token = (before ++ [l]) ++ shelf.after (some l) := by
          rw [hafter]
          simp
        rw [List.map_append, hsplit]
        exact (present_keys_sublist t _).append hih.sublist
      · rcases List.mem_append.mp hmem with hmem | hmem
        · exact ⟨t, Nat.le_refl t, by omega, (mem_present.mp hmem).2⟩
        · obtain ⟨w, hle, hlt, hw⟩ := hih.held k a hmem
          exact ⟨w, by omega, hlt, hw⟩
      · rw [List.map_append, List.mem_append]
        rw [hafter] at hk
        by_cases hrest : k ∈ shelf.after (some l)
        · exact .inr (hih.every k hrest fun w hle hlt => hheld w (by omega) hlt)
        · have hin : k ∈ before ++ [l] := by simp_all
          obtain ⟨a, ha⟩ := Option.isSome_iff_exists.mp (hheld t (Nat.le_refl t) (by omega))
          exact .inl (List.mem_map.mpr ⟨(k, a), mem_present.mpr ⟨hin, ha⟩, rfl⟩)

theorem Complete.nodup {out : List (κ × α)} (h : shelf.Complete t u token out) :
    (out.map Prod.fst).Nodup :=
  (h.sublist.trans (after_suffix token).sublist).nodup shelf.nodup

end Shelf

end Paging
