import Mathlib.Data.List.Perm.Subperm
import Mathlib.Data.List.Forall2
import Mathlib.Data.List.Nodup

namespace OneSided

section Comparisons

variable {E P Q : Type}

-- what is asked of a comparison at one record, against all others
structure Lawful (eq alike same : E → E → Prop) (a : E) : Prop where
  copies : ∀ b, alike a b → eq a b
  symm : ∀ b, eq a b → eq b a
  trans : ∀ b c, eq a b → eq b c → eq a c
  same : ∀ b, eq a b → same a b

def Both (r : P → P → Prop) (s : Q → Q → Prop) (a b : P × Q) : Prop := r a.1 b.1 ∧ s a.2 b.2

theorem lawful_both {eq alike same : P → P → Prop} {eq' alike' same' : Q → Q → Prop} {a : P × Q}
    (hp : alike a.1 a.1) (hq : alike' a.2 a.2) :
    Lawful (Both eq eq') (Both alike alike') (Both same same') a ↔
      Lawful eq alike same a.1 ∧ Lawful eq' alike' same' a.2 := by
  constructor
  · intro h
    obtain ⟨hfst, hsnd⟩ := h.copies a ⟨hp, hq⟩
    constructor
    · exact {
        copies := fun b hb => (h.copies (b, a.2) ⟨hb, hq⟩).1
        symm := fun b hb => (h.symm (b, a.2) ⟨hb, hsnd⟩).1
        trans := fun b c hb hc => (h.trans (b, a.2) (c, a.2) ⟨hb, hsnd⟩ ⟨hc, hsnd⟩).1
        same := fun b hb => (h.same (b, a.2) ⟨hb, hsnd⟩).1
      }
    · exact {
        copies := fun b hb => (h.copies (a.1, b) ⟨hp, hb⟩).2
        symm := fun b hb => (h.symm (a.1, b) ⟨hfst, hb⟩).2
        trans := fun b c hb hc => (h.trans (a.1, b) (a.1, c) ⟨hfst, hb⟩ ⟨hfst, hc⟩).2
        same := fun b hb => (h.same (a.1, b) ⟨hfst, hb⟩).2
      }
  · rintro ⟨hfst, hsnd⟩
    exact {
      copies := fun b hb => ⟨hfst.copies _ hb.1, hsnd.copies _ hb.2⟩
      symm := fun b hb => ⟨hfst.symm _ hb.1, hsnd.symm _ hb.2⟩
      trans := fun b c hb hc => ⟨hfst.trans _ _ hb.1 hc.1, hsnd.trans _ _ hb.2 hc.2⟩
      same := fun b hb => ⟨hfst.same _ hb.1, hsnd.same _ hb.2⟩
    }

-- a record falls into columns that an equivalence compares and parts that can be replaced
structure Parted (eq alike same rest : E → E → Prop) (parts : E → P)
    (eq' alike' same' : P → P → Prop) : Prop where
  equivalence : Equivalence rest
  eq_iff : ∀ a b, eq a b ↔ rest a b ∧ eq' (parts a) (parts b)
  same_iff : ∀ a b, same a b ↔ same' (parts a) (parts b)
  of_alike : ∀ a b, alike a b → rest a b ∧ alike' (parts a) (parts b)
  replaced : ∀ a p, ∃ b, parts b = p ∧ rest a b ∧ (alike' (parts a) p → alike a b)

theorem Parted.lawful_iff {eq alike same rest : E → E → Prop} {parts : E → P}
    {eq' alike' same' : P → P → Prop} (h : Parted eq alike same rest parts eq' alike' same') (a : E) :
    Lawful eq alike same a ↔ Lawful eq' alike' same' (parts a) := by
  constructor
  · intro hlawful
    constructor
    · intro p hp
      obtain ⟨b, rfl, -, halike⟩ := h.replaced a p
      exact ((h.eq_iff a b).mp (hlawful.copies b (halike hp))).2
    · intro p hp
      obtain ⟨b, rfl, hrest, -⟩ := h.replaced a p
      have hab := (h.eq_iff a b).mpr ⟨hrest, hp⟩
      exact ((h.eq_iff b a).mp (hlawful.symm b hab)).2
    · intro p q hp hq
      obtain ⟨b, rfl, hb, -⟩ := h.replaced a p
      obtain ⟨c, rfl, hc, -⟩ := h.replaced b q
      have hac := hlawful.trans b c ((h.eq_iff a b).mpr ⟨hb, hp⟩) ((h.eq_iff b c).mpr ⟨hc, hq⟩)
      exact ((h.eq_iff a c).mp hac).2
    · intro p hp
      obtain ⟨b, rfl, hrest, -⟩ := h.replaced a p
      exact (h.same_iff a b).mp (hlawful.same b ((h.eq_iff a b).mpr ⟨hrest, hp⟩))
  · intro hlawful
    constructor
    · intro b hb
      obtain ⟨hrest, hparts⟩ := h.of_alike a b hb
      exact (h.eq_iff a b).mpr ⟨hrest, hlawful.copies _ hparts⟩
    · intro b hb
      obtain ⟨hrest, hparts⟩ := (h.eq_iff a b).mp hb
      exact (h.eq_iff b a).mpr ⟨h.equivalence.symm hrest, hlawful.symm _ hparts⟩
    · intro b c hb hc
      obtain ⟨hrestB, hpartsB⟩ := (h.eq_iff a b).mp hb
      obtain ⟨hrestC, hpartsC⟩ := (h.eq_iff b c).mp hc
      exact (h.eq_iff a c).mpr ⟨h.equivalence.trans hrestB hrestC, hlawful.trans _ _ hpartsB hpartsC⟩
    · intro b hb
      exact (h.same_iff a b).mpr (hlawful.same _ ((h.eq_iff a b).mp hb).2)

end Comparisons

section Lists

variable {α β κ γ ν : Type}

-- the list has as many elements as the other, and each of them is found there
def listed (found : α → List α → Bool) (a b : Option (List α)) : Bool :=
  a.map List.length == b.map List.length &&
    (a.map fun xs => xs.all fun x => found x (b.getD [])).getD false

-- elements are compared by a key; some are passed over, and some are not even found where they are
structure Elements (α κ γ ν : Type) where
  key : α → κ
  columns : α → γ
  value : α → ν
  skipped : κ → Prop
  findable : κ → Prop

variable (e : Elements α κ γ ν)

def Elements.Covers (xs ys : List α) : Prop :=
  ∀ x ∈ xs, e.skipped (e.key x) ∨ e.findable (e.key x) ∧ e.key x ∈ ys.map e.key

def Elements.Matches (a b : Option (List α)) : Prop :=
  ∃ xs ys, a = some xs ∧ b = some ys ∧ xs.length = ys.length ∧ e.Covers xs ys

def Elements.Copies (a b : Option (List α)) : Prop :=
  a.map (List.map e.columns) = b.map (List.map e.columns)

-- equal as collections; a list that is unset has no elements
def SameBy (value : α → ν) (a b : Option (List α)) : Prop :=
  ((a.getD []).map value).Perm ((b.getD []).map value)

-- the key of the element tells what it is, and copies of it have that key
structure Elements.Told (x : α) : Prop where
  kept : ¬ e.skipped (e.key x)
  findable : e.findable (e.key x)
  value : ∀ y, e.key x = e.key y → e.value x = e.value y
  columns : ∀ y, e.columns x = e.columns y → e.key x = e.key y

-- a list that is set, of elements with different keys
def DistinctBy (key : α → κ) (told : α → Prop) (a : Option (List α)) : Prop :=
  ∃ xs, a = some xs ∧ (xs.map key).Nodup ∧ ∀ x ∈ xs, told x

variable {e} {f : α → List α → Bool} {a b : Option (List α)} {xs ys l r : List α} {x y : α}

theorem listed_iff (h : ∀ x ys, f x ys = true ↔
    e.skipped (e.key x) ∨ e.findable (e.key x) ∧ e.key x ∈ ys.map e.key) :
    listed f a b = true ↔ e.Matches a b := by
  rw [listed, Bool.and_eq_true, beq_iff_eq]
  cases a with
  | none => exact iff_of_false (fun ⟨_, hall⟩ => absurd hall Bool.false_ne_true) fun ⟨_, _, h, _⟩ => by cases h
  | some xs =>
    cases b with
    | none => exact iff_of_false (fun ⟨hlength, _⟩ => by cases hlength) fun ⟨_, _, _, h, _⟩ => by cases h
    | some ys =>
      rw [Option.map_some, Option.map_some, Option.map_some, Option.getD_some, Option.getD_some,
        Option.some.injEq, List.all_eq_true]
      simp only [h]
      constructor
      · rintro ⟨hlength, hall⟩
        exact ⟨xs, ys, rfl, rfl, hlength, hall⟩
      · rintro ⟨_, _, ⟨⟩, ⟨⟩, hlength, hall⟩
        exact ⟨hlength, hall⟩

theorem nodup_of_splits {f : α → κ} (h : ∀ l x r, xs = l ++ x :: r → f x ∉ r.map f) :
    (xs.map f).Nodup := by
  induction xs with
  | nil => exact List.nodup_nil
  | cons x xs ih =>
    rw [List.map_cons, List.nodup_cons]
    exact ⟨h [] x xs rfl, ih fun l y r hsplit => h (x :: l) y r (by rw [hsplit, List.cons_append])⟩

theorem map_eq_of_map_eq {f : α → κ} {g : α → γ} (h : xs.map g = ys.map g)
    (hf : ∀ x ∈ xs, ∀ y, g x = g y → f x = f y) : xs.map f = ys.map f := by
  induction xs generalizing ys with
  | nil =>
    rw [List.map_nil, eq_comm, List.map_eq_nil_iff] at h
    rw [h]
  | cons x xs ih =>
    cases ys with
    | nil => cases h
    | cons y ys =>
      obtain ⟨hhead, htail⟩ := List.cons.inj h
      rw [List.map_cons, List.map_cons, hf x List.mem_cons_self y hhead,
        ih htail fun z hz => hf z (List.mem_cons_of_mem x hz)]

-- lists with the same keys hold the same, where a key tells what its element is
theorem perm_map_of_perm_map {f : α → κ} {g : α → ν} (h : (xs.map f).Perm (ys.map f))
    (hg : ∀ x ∈ xs, ∀ y, f x = f y → g x = g y) : (xs.map g).Perm (ys.map g) := by
  induction xs generalizing ys with
  | nil =>
    rw [List.map_nil, List.nil_perm, List.map_eq_nil_iff] at h
    rw [h]
  | cons x xs ih =>
    have hmem : f x ∈ ys.map f := h.subset List.mem_cons_self
    obtain ⟨y, hy, hkey⟩ := List.mem_map.mp hmem
    obtain ⟨l, r, rfl⟩ := List.append_of_mem hy
    have hrest : (xs.map f).Perm ((l ++ r).map f) := by
      refine List.Perm.cons_inv (h.trans ?_)
      rw [List.map_append, List.map_cons, List.map_append, hkey]
      exact List.perm_middle
    have hvalues := ih hrest fun z hz => hg z (List.mem_cons_of_mem x hz)
    rw [List.map_cons, hg x List.mem_cons_self y hkey.symm]
    refine (hvalues.cons _).trans ?_
    rw [List.map_append, List.map_append, List.map_cons]
    exact List.perm_middle.symm

theorem perm_of_covers (hcovers : e.Covers xs ys) (hnodup : (xs.map e.key).Nodup)
    (hkept : ∀ x ∈ xs, ¬ e.skipped (e.key x)) (hlength : xs.length = ys.length) :
    (xs.map e.key).Perm (ys.map e.key) := by
  have hsubset : xs.map e.key ⊆ ys.map e.key := by
    intro k hk
    obtain ⟨x, hx, rfl⟩ := List.mem_map.mp hk
    exact ((hcovers x hx).resolve_left (hkept x hx)).2
  refine (List.subperm_of_subset hnodup hsubset).perm_of_length_le (Nat.le_of_eq ?_)
  rw [List.length_map, List.length_map, hlength]

theorem matches_some (h : e.Matches (some xs) b) :
    ∃ ys, b = some ys ∧ xs.length = ys.length ∧ e.Covers xs ys := by
  obtain ⟨_, ys, ⟨⟩, rfl, hlength, hcovers⟩ := h
  exact ⟨ys, rfl, hlength, hcovers⟩

theorem perm_of_matches (hnodup : (xs.map e.key).Nodup) (htold : ∀ x ∈ xs, e.Told x)
    (h : e.Matches (some xs) b) : ∃ ys, b = some ys ∧ (xs.map e.key).Perm (ys.map e.key) := by
  obtain ⟨ys, hb, hlength, hcovers⟩ := matches_some h
  exact ⟨ys, hb, perm_of_covers hcovers hnodup (fun x hx => (htold x hx).kept) hlength⟩

theorem matches_of_perm (htold : ∀ x ∈ xs, e.Told x) (h : (ys.map e.key).Perm (xs.map e.key)) {zs}
    (hz : (xs.map e.key).Perm (zs.map e.key)) : e.Matches (some ys) (some zs) := by
  have hlength := (h.trans hz).length_eq
  rw [List.length_map, List.length_map] at hlength
  refine ⟨ys, zs, rfl, rfl, hlength, fun y hy => .inr ?_⟩
  have hmem := h.subset (List.mem_map_of_mem hy)
  obtain ⟨x, hx, hkey⟩ := List.mem_map.mp hmem
  exact ⟨hkey ▸ (htold x hx).findable, hz.subset hmem⟩

theorem distinctBy_congr {key : α → κ} {told told' : α → Prop} (h : ∀ x, told x ↔ told' x) :
    DistinctBy key told a ↔ DistinctBy key told' a := by
  simp only [DistinctBy, h]

theorem lawful_of_distinct (h : DistinctBy e.key e.Told a) : Lawful e.Matches e.Copies (SameBy e.value) a := by
  obtain ⟨xs, rfl, hnodup, htold⟩ := h
  constructor
  · intro b hb
    obtain ⟨ys, rfl, hcolumns⟩ := Option.map_eq_some_iff.mp hb.symm
    have hkeys := map_eq_of_map_eq hcolumns.symm fun x hx => (htold x hx).columns
    exact matches_of_perm htold (.refl _) (.of_eq hkeys)
  · intro b hb
    obtain ⟨ys, rfl, hkeys⟩ := perm_of_matches hnodup htold hb
    exact matches_of_perm htold hkeys.symm (.refl _)
  · intro b c hb hc
    obtain ⟨ys, rfl, hkeys⟩ := perm_of_matches hnodup htold hb
    obtain ⟨zs, rfl, hlength, hcovers⟩ := matches_some hc
    have hkept : ∀ y ∈ ys, ¬ e.skipped (e.key y) := by
      intro y hy
      obtain ⟨x, hx, hkey⟩ := List.mem_map.mp (hkeys.symm.subset (List.mem_map_of_mem hy))
      exact hkey ▸ (htold x hx).kept
    have hkeysC := perm_of_covers hcovers (hkeys.nodup_iff.mp hnodup) hkept hlength
    exact matches_of_perm htold (.refl _) (hkeys.trans hkeysC)
  · intro b hb
    obtain ⟨ys, rfl, hkeys⟩ := perm_of_matches hnodup htold hb
    exact perm_map_of_perm_map hkeys fun x hx => (htold x hx).value

-- another element is put in the place of one
theorem matches_replaced (hself : e.Covers (l ++ x :: r) (l ++ x :: r))
    (hx : e.skipped (e.key x) ∨ e.findable (e.key x) ∧ e.key x ∈ (l ++ y :: r).map e.key) :
    e.Matches (some (l ++ x :: r)) (some (l ++ y :: r)) := by
  refine ⟨_, _, rfl, rfl, ?_, ?_⟩
  · rw [List.length_append, List.length_append, List.length_cons, List.length_cons]
  · intro z hz
    by_cases hkey : e.key z = e.key x
    · rw [hkey]
      exact hx
    · refine (hself z hz).imp_right fun ⟨hfindable, hmem⟩ => ⟨hfindable, ?_⟩
      simp only [List.map_append, List.map_cons, List.mem_append, List.mem_cons] at hmem ⊢
      rcases hmem with hmem | hmem | hmem
      · exact .inl hmem
      · exact absurd hmem hkey
      · exact .inr (.inr hmem)

variable (hfresh : ∀ ks : List κ, ∃ y, e.key y ∉ ks ∧ ¬ e.skipped (e.key y))

include hfresh

-- where the others cover for an element, a fresh one in its place is found by only one side
theorem needed_of_lawful (h : Lawful e.Matches e.Copies (SameBy e.value) (some (l ++ x :: r)))
    (hself : e.Covers (l ++ x :: r) (l ++ x :: r)) :
    ¬ e.skipped (e.key x) ∧ e.key x ∉ (l ++ r).map e.key := by
  have hnone : ¬ (e.skipped (e.key x) ∨ e.key x ∈ (l ++ r).map e.key) := by
    intro hcovered
    obtain ⟨y, hy, hkept⟩ := hfresh ((l ++ x :: r).map e.key)
    have hmatches : e.Matches (some (l ++ x :: r)) (some (l ++ y :: r)) := by
      refine matches_replaced hself ?_
      rcases hself x (List.mem_append_right l List.mem_cons_self) with hskipped | ⟨hfindable, -⟩
      · exact .inl hskipped
      · refine hcovered.imp_right fun hmem => ⟨hfindable, ?_⟩
        simp only [List.map_append, List.map_cons, List.mem_append, List.mem_cons] at hmem ⊢
        exact hmem.imp_right .inr
    obtain ⟨_, ⟨⟩, -, hcovers⟩ := matches_some (h.symm _ hmatches)
    rcases hcovers y (List.mem_append_right l List.mem_cons_self) with hskipped | ⟨-, hmem⟩
    · exact hkept hskipped
    · exact hy hmem
  exact not_or.mp hnone

theorem told_of_lawful (h : Lawful e.Matches e.Copies (SameBy e.value) (some (l ++ x :: r)))
    (hself : e.Covers (l ++ x :: r) (l ++ x :: r)) : e.Told x := by
  have hx : x ∈ l ++ x :: r := List.mem_append_right l List.mem_cons_self
  obtain ⟨hkept, hother⟩ := needed_of_lawful hfresh h hself
  have hfindable := ((hself x hx).resolve_left hkept).1
  have hsame : ∀ y, e.Matches (some (l ++ x :: r)) (some (l ++ y :: r)) → e.key x = e.key y := by
    intro y hmatches
    obtain ⟨_, ⟨⟩, -, hcovers⟩ := matches_some hmatches
    have hmem := ((hcovers x hx).resolve_left hkept).2
    simp only [List.map_append, List.map_cons, List.mem_append, List.mem_cons] at hmem hother
    tauto
  refine ⟨hkept, hfindable, fun y hkey => ?_, fun y hcolumns => hsame y (h.copies _ ?_)⟩
  · have hmatches : e.Matches (some (l ++ x :: r)) (some (l ++ y :: r)) :=
      matches_replaced hself (.inr ⟨hfindable, by simp [hkey]⟩)
    have hvalues := h.same _ hmatches
    simp only [SameBy, Option.getD_some, List.map_append, List.map_cons] at hvalues
    have hheads := (List.perm_append_left_iff _).mp hvalues
    exact List.singleton_perm_singleton.mp ((List.perm_append_right_iff _).mp hheads)
  · simp [Elements.Copies, hcolumns]

theorem lawful_iff : Lawful e.Matches e.Copies (SameBy e.value) a ↔ DistinctBy e.key e.Told a := by
  refine ⟨fun h => ?_, lawful_of_distinct⟩
  obtain ⟨xs, _, rfl, ⟨⟩, -, hself⟩ := h.copies a rfl
  refine ⟨xs, rfl, nodup_of_splits fun l x r hsplit hmem => ?_, fun x hx => ?_⟩
  · subst hsplit
    exact (needed_of_lawful hfresh h hself).2 (by simp [hmem])
  · obtain ⟨l, r, rfl⟩ := List.append_of_mem hx
    exact told_of_lawful hfresh h hself

end Lists

end OneSided
