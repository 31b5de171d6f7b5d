import Mathlib.Logic.Function.Iterate

namespace Settling

-- two sides: a row, and what is read of the other side for it
structure Sync (σ E : Type) where
  row : σ → E
  read : σ → Option E
  equals : E → E → Bool
  update : E → σ → σ

namespace Sync

variable {σ E : Type} (m : Sync σ E)

def Agreed (s : σ) : Prop := ∃ c, m.read s = some c ∧ m.equals (m.row s) c = true

structure Differs (s : σ) (c : E) : Prop where
  read : m.read s = some c
  unequal : m.equals (m.row s) c = false

-- both sides are read, and updated where they differ
def round (s : σ) : σ :=
  match m.read s with
  | none => s
  | some c => if m.equals (m.row s) c then s else m.update c s

def Settles (s : σ) : Prop := ∃ n, m.Agreed (m.round^[n] s)

variable {m} {s : σ} {c : E}

theorem agreed_iff (h : m.read s = some c) : m.Agreed s ↔ m.equals (m.row s) c = true := by
  constructor
  · rintro ⟨c', hread, hequals⟩
    obtain rfl : c = c' := Option.some.inj (h.symm.trans hread)
    exact hequals
  · exact fun hequals => ⟨c, h, hequals⟩

theorem Differs.not_agreed (h : m.Differs s c) : ¬ m.Agreed s := by
  rw [agreed_iff h.read, h.unequal]
  exact Bool.false_ne_true

theorem round_of_differs (h : m.Differs s c) : m.round s = m.update c s := by
  rw [round, h.read]
  exact if_neg (by simp [h.unequal])

theorem round_of_unread (h : m.read s = none) : m.round s = s := by
  rw [round, h]

theorem settles_of_agreed (h : m.Agreed s) : m.Settles s := ⟨0, h⟩

theorem settles_of_round (h : m.Settles (m.round s)) : m.Settles s := by
  obtain ⟨n, hn⟩ := h
  exact ⟨n + 1, by rwa [Function.iterate_succ_apply]⟩

theorem settles_iff_of_differs (h : m.Differs s c) : m.Settles s ↔ m.Settles (m.update c s) := by
  rw [← round_of_differs h]
  constructor
  · rintro ⟨n, hn⟩
    cases n with
    | zero => exact absurd hn h.not_agreed
    | succ n => exact ⟨n, by rwa [Function.iterate_succ_apply] at hn⟩
  · exact settles_of_round

theorem settles_of_update (h : m.Differs s c) (hagreed : m.Agreed (m.update c s)) : m.Settles s :=
  (settles_iff_of_differs h).mpr (settles_of_agreed hagreed)

-- a state where they differ, or that is not read, is kept apart by an invariant of the updates
theorem not_settles {Apart : σ → Prop} (hdiffers : ∀ s, Apart s → m.read s = none ∨ ∃ c, m.Differs s c)
    (hupdate : ∀ s c, Apart s → m.Differs s c → Apart (m.update c s)) (h : Apart s) :
    ¬ m.Settles s := by
  have hround : ∀ s, Apart s → Apart (m.round s) := by
    intro s hs
    rcases hdiffers s hs with hnone | ⟨c, hc⟩
    · rwa [round_of_unread hnone]
    · rw [round_of_differs hc]
      exact hupdate s c hs hc
  have hrounds : ∀ n s, Apart s → Apart (m.round^[n] s) := by
    intro n
    induction n with
    | zero => exact fun _ hs => hs
    | succ n ih =>
      intro s hs
      rw [Function.iterate_succ_apply]
      exact ih _ (hround s hs)
  rintro ⟨n, hn⟩
  rcases hdiffers _ (hrounds n s h) with hnone | ⟨c, hc⟩
  · obtain ⟨c, hread, -⟩ := hn
    rw [hnone] at hread
    cases hread
  · exact hc.not_agreed hn

theorem not_settles_of_fixed (h : m.Differs s c) (hfixed : m.update c s = s) : ¬ m.Settles s := by
  refine @not_settles _ _ m s (fun t => t = s) ?_ ?_ rfl
  · rintro t rfl
    exact .inr ⟨c, h⟩
  · rintro t c' rfl h'
    obtain rfl : c = c' := Option.some.inj (h.read.symm.trans h'.read)
    exact hfixed

-- where a second update changes nothing, the first one decides
theorem settles_iff_update (h : m.Differs s c)
    (hfixed : ∀ c', m.Differs (m.update c s) c' → m.update c' (m.update c s) = m.update c s)
    (hread : (m.read (m.update c s)).isSome = true) :
    m.Settles s ↔ m.Agreed (m.update c s) := by
  refine ⟨fun hsettles => ?_, settles_of_update h⟩
  obtain ⟨c', hc'⟩ := Option.isSome_iff_exists.mp hread
  cases hequals : m.equals (m.row (m.update c s)) c' with
  | true => exact ⟨c', hc', hequals⟩
  | false =>
    have hdiffers : m.Differs (m.update c s) c' := ⟨hc', hequals⟩
    have hagain := (settles_iff_of_differs h).mp hsettles
    exact absurd hagain (not_settles_of_fixed hdiffers (hfixed c' hdiffers))

end Sync

end Settling
