import Mathlib.Data.List.Perm.Basic

namespace Rulesets

variable {α κ : Type} [DecidableEq κ] (key : α → κ) (accepts : α → Bool)

-- a row is added where it is accepted and no other row has its key
def insert (a : α) (rows : List α) : Option (List α) :=
  if accepts a && !rows.any (key · == key a) then some (rows ++ [a]) else none

def erase (k : κ) (rows : List α) : Option (List α) :=
  if rows.any (key · == k) then some (rows.filter (key · != k)) else none

-- one change after another, as long as none is refused
def changeAll {β : Type} (change : β → List α → Option (List α)) : List β → List α → Option (List α)
  | [], rows => some rows
  | b :: bs, rows => (change b rows).bind (changeAll change bs)

def insertAll : List α → List α → Option (List α) := changeAll (insert key accepts)

def eraseAll : List α → List α → Option (List α) := changeAll fun a => erase key (key a)

-- the rows can be in one set
structure Storable (as : List α) : Prop where
  accepted : ∀ a ∈ as, accepts a = true
  apart : as.Pairwise fun a b => key a ≠ key b

variable {key accepts} {a : α} {as rows out : List α}

theorem insert_eq_some_iff :
    insert key accepts a rows = some out ↔
      out = rows ++ [a] ∧ accepts a = true ∧ ∀ r ∈ rows, key r ≠ key a := by
  rw [insert]
  split
  · next h =>
    simp only [Bool.and_eq_true, Bool.not_eq_true', List.any_eq_false, beq_iff_eq] at h
    exact ⟨fun heq => ⟨(Option.some.inj heq).symm, h⟩, fun heq => by rw [heq.1]⟩
  · next h =>
    refine iff_of_false nofun fun hall => h ?_
    simp only [Bool.and_eq_true, Bool.not_eq_true', List.any_eq_false, beq_iff_eq]
    exact hall.2

omit [DecidableEq κ] in
theorem storable_cons :
    Storable key accepts (a :: as) ↔
      accepts a = true ∧ (∀ b ∈ as, key a ≠ key b) ∧ Storable key accepts as := by
  constructor
  · rintro ⟨haccepted, hapart⟩
    obtain ⟨hhead, htail⟩ := List.pairwise_cons.mp hapart
    exact ⟨haccepted a List.mem_cons_self, hhead,
      fun b hb => haccepted b (List.mem_cons_of_mem _ hb), htail⟩
  · rintro ⟨ha, hhead, hrest⟩
    exact ⟨List.forall_mem_cons.mpr ⟨ha, hrest.accepted⟩, List.pairwise_cons.mpr ⟨hhead, hrest.apart⟩⟩

-- rows are added one after another exactly where they can be in one set, and none is there already
theorem insertAll_eq_some_iff :
    insertAll key accepts as rows = some out ↔
      out = rows ++ as ∧ Storable key accepts as ∧ ∀ a ∈ as, ∀ r ∈ rows, key r ≠ key a := by
  induction as generalizing rows with
  | nil =>
    rw [insertAll, changeAll, List.append_nil]
    refine ⟨fun h => ⟨(Option.some.inj h).symm, ⟨nofun, .nil⟩, nofun⟩, fun h => by rw [h.1]⟩
  | cons a as ih =>
    rw [insertAll, changeAll, Option.bind_eq_some_iff, storable_cons, List.forall_mem_cons]
    constructor
    · rintro ⟨rows', hrows', hrest⟩
      obtain ⟨rfl, haccepted, hfresh⟩ := insert_eq_some_iff.mp hrows'
      obtain ⟨rfl, hstorable, hothers⟩ := ih.mp hrest
      refine ⟨by simp, ⟨haccepted, fun b hb => ?_, hstorable⟩, hfresh, fun b hb r hr => ?_⟩
      · exact hothers b hb a (by simp)
      · exact hothers b hb r (by simp [hr])
    · rintro ⟨rfl, ⟨haccepted, hhead, hstorable⟩, hfresh, hothers⟩
      refine ⟨rows ++ [a], insert_eq_some_iff.mpr ⟨rfl, haccepted, hfresh⟩, ih.mpr ⟨by simp, hstorable, ?_⟩⟩
      intro b hb r hr
      rcases List.mem_append.mp hr with hr | hr
      · exact hothers b hb r hr
      · obtain rfl := List.mem_singleton.mp hr
        exact hhead b hb

-- the keys of rows that are there, each at most once, can be removed one after another
theorem eraseAll_eq_some (hsub : ∀ a ∈ as, ∃ r ∈ rows, key r = key a)
    (hapart : as.Pairwise fun a b => key a ≠ key b) :
    eraseAll key as rows = some (rows.filter fun r => !as.any (key r == key ·)) := by
  induction as generalizing rows with
  | nil => simp [eraseAll, changeAll]
  | cons a as ih =>
    obtain ⟨hhead, htail⟩ := List.pairwise_cons.mp hapart
    have hthere : rows.any (key · == key a) = true := by
      obtain ⟨r, hr, hkey⟩ := hsub a List.mem_cons_self
      exact List.any_eq_true.mpr ⟨r, hr, beq_iff_eq.mpr hkey⟩
    have hrest : ∀ b ∈ as, ∃ r ∈ rows.filter (key · != key a), key r = key b := by
      intro b hb
      obtain ⟨r, hr, hkey⟩ := hsub b (List.mem_cons_of_mem _ hb)
      refine ⟨r, List.mem_filter.mpr ⟨hr, ?_⟩, hkey⟩
      rw [bne_iff_ne, hkey]
      exact (hhead b hb).symm
    rw [eraseAll, changeAll, erase, if_pos hthere, Option.bind_some]
    refine (ih hrest htail).trans ?_
    rw [List.filter_filter]
    refine congrArg some (List.filter_congr fun r _ => ?_)
    rw [List.any_cons, Bool.not_or, Bool.and_comm]
    rfl

end Rulesets
