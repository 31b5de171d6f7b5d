import Mathlib.Data.List.Basic
import Mathlib.Data.List.Nodup

namespace Tables

variable {α ι κ : Type} [DecidableEq ι] [DecidableEq κ] (id : α → ι) (key : α → Option κ)

-- another row holds the unique key already; a key with a null in it clashes with none
def Clashes (a : α) (rows : List α) : Prop :=
  ∃ r ∈ rows, id r ≠ id a ∧ key a ≠ none ∧ key r = key a

instance (a : α) (rows : List α) : Decidable (Clashes id key a rows) :=
  inferInstanceAs (Decidable (∃ r ∈ rows, _))

def put (a : α) (rows : List α) : List α :=
  if ∃ r ∈ rows, id r = id a then rows.map fun r => if id r = id a then a else r else rows ++ [a]

-- the rows are written one after another, and none of them if one is refused
def save : List α → List α → Option (List α)
  | [], rows => some rows
  | a :: as, rows => if Clashes id key a rows then none else save as (put id a rows)

def Identified (rows : List α) : Prop := ∀ r ∈ rows, ∀ s ∈ rows, id r = id s → r = s

-- the rows of as get the new values given by f, one after another
def Writable (f : α → α) (as rows : List α) : Prop :=
  (∀ a ∈ as, ∀ r ∈ rows, id r ∉ as.map id → key (f a) ≠ none → key r ≠ key (f a)) ∧
  as.Pairwise fun a b => key (f a) ≠ none → key (f b) ≠ key (f a) ∧ key b ≠ key (f a)

variable {id key} {a s : α} {as rows out : List α}

theorem mem_put : s ∈ put id a rows ↔ s = a ∨ s ∈ rows ∧ id s ≠ id a := by
  unfold put
  split
  · next h =>
    obtain ⟨r, hr, hid⟩ := h
    rw [List.mem_map]
    constructor
    · rintro ⟨t, ht, rfl⟩
      by_cases heq : id t = id a
      · exact .inl (if_pos heq)
      · rw [if_neg heq]
        exact .inr ⟨ht, heq⟩
    · rintro (rfl | ⟨hs, hne⟩)
      · exact ⟨r, hr, if_pos hid⟩
      · exact ⟨s, hs, if_neg hne⟩
  · next h =>
    rw [List.mem_append, List.mem_singleton, or_comm]
    refine or_congr_right ⟨fun hs => ⟨hs, fun heq => h ⟨s, hs, heq⟩⟩, And.left⟩

theorem Identified.put (h : Identified id rows) : Identified id (put id a rows) := by
  intro r hr t ht heq
  rcases mem_put.mp hr with rfl | ⟨hr, hra⟩ <;> rcases mem_put.mp ht with rfl | ⟨ht, hta⟩
  · rfl
  · exact absurd heq.symm hta
  · exact absurd heq hra
  · exact h r hr t ht heq

theorem map_id_put : (put id a rows).map id =
    if ∃ r ∈ rows, id r = id a then rows.map id else rows.map id ++ [id a] := by
  unfold put
  split
  · rw [List.map_map]
    refine List.map_congr_left fun r _ => ?_
    by_cases h : id r = id a
    · exact (congrArg id (if_pos h)).trans h.symm
    · exact congrArg id (if_neg h)
  · rw [List.map_append, List.map_singleton]

theorem nodup_put (h : (rows.map id).Nodup) : ((put id a rows).map id).Nodup := by
  rw [map_id_put]
  split
  · exact h
  · next hnew =>
    refine h.append (List.nodup_singleton _) fun i hi hia => hnew ?_
    obtain ⟨r, hr, rfl⟩ := List.mem_map.mp hi
    exact ⟨r, hr, List.mem_singleton.mp hia⟩

theorem mem_save (h : save id key as rows = some out) (hnodup : (as.map id).Nodup) :
    s ∈ out ↔ s ∈ as ∨ s ∈ rows ∧ id s ∉ as.map id := by
  induction as generalizing rows with
  | nil =>
    cases h
    simp
  | cons a as ih =>
    rw [save] at h
    split at h
    · cases h
    · obtain ⟨hfresh, hnodup⟩ := List.nodup_cons.mp hnodup
      rw [ih h hnodup, mem_put, List.map_cons, List.mem_cons, List.mem_cons]
      constructor
      · rintro (hs | ⟨rfl | ⟨hs, hne⟩, hnotin⟩)
        · exact .inl (.inr hs)
        · exact .inl (.inl rfl)
        · exact .inr ⟨hs, not_or.mpr ⟨hne, hnotin⟩⟩
      · rintro ((rfl | hs) | ⟨hs, hnotin⟩)
        · exact .inr ⟨.inl rfl, hfresh⟩
        · exact .inl hs
        · exact .inr ⟨.inr ⟨hs, (not_or.mp hnotin).1⟩, (not_or.mp hnotin).2⟩

theorem save_isSome_of_new (hnew : ∀ b ∈ as, ∀ r ∈ rows, key b ≠ none → key r ≠ key b)
    (hpair : as.Pairwise fun b c => key c ≠ none → key b ≠ key c) :
    (save id key as rows).isSome = true := by
  induction as generalizing rows with
  | nil => rfl
  | cons a as ih =>
    obtain ⟨hhead, htail⟩ := List.pairwise_cons.mp hpair
    rw [save, if_neg]
    · refine ih (fun b hb r hr => ?_) htail
      rcases mem_put.mp hr with rfl | ⟨hr, -⟩
      · exact hhead b hb
      · exact hnew b (List.mem_cons_of_mem _ hb) r hr
    · rintro ⟨r, hr, -, hnone, hkey⟩
      exact hnew a List.mem_cons_self r hr hnone hkey

section Updates

variable {f : α → α}

omit [DecidableEq κ] in
theorem writable_cons (hf : ∀ r, id (f r) = id r) (hsub : ∀ b ∈ a :: as, b ∈ rows)
    (hid : Identified id rows) (hnodup : ((a :: as).map id).Nodup) :
    Writable id key f (a :: as) rows ↔
      ¬ Clashes id key (f a) rows ∧ Writable id key f as (put id (f a) rows) := by
  obtain ⟨hfresh, hnodup⟩ := List.nodup_cons.mp hnodup
  have ha : a ∈ rows := hsub a List.mem_cons_self
  constructor
  · rintro ⟨hothers, hpair⟩
    obtain ⟨hhead, htail⟩ := List.pairwise_cons.mp hpair
    refine ⟨?_, ?_, htail⟩
    · rintro ⟨r, hr, hne, hnone, hkey⟩
      rw [hf] at hne
      by_cases hin : id r ∈ as.map id
      · obtain ⟨b, hb, hbid⟩ := List.mem_map.mp hin
        obtain rfl : b = r := hid b (hsub b (List.mem_cons_of_mem _ hb)) r hr hbid
        exact (hhead b hb hnone).2 hkey
      · refine hothers a List.mem_cons_self r hr ?_ hnone hkey
        rw [List.map_cons, List.mem_cons, not_or]
        exact ⟨hne, hin⟩
    · intro b hb r hr hnotin hnone hkey
      rcases mem_put.mp hr with rfl | ⟨hr, hne⟩
      · exact (hhead b hb (hkey ▸ hnone)).1 hkey.symm
      · refine hothers b (List.mem_cons_of_mem _ hb) r hr ?_ hnone hkey
        rw [List.map_cons, List.mem_cons, not_or]
        exact ⟨by rwa [hf] at hne, hnotin⟩
  · rintro ⟨hclash, hothers, htail⟩
    have hfa : ∀ r ∈ rows, id r ≠ id a → key (f a) ≠ none → key r ≠ key (f a) :=
      fun r hr hne hnone hkey => hclash ⟨r, hr, by rwa [hf], hnone, hkey⟩
    have hstays : ∀ r ∈ rows, id r ≠ id a → r ∈ put id (f a) rows :=
      fun r hr hne => mem_put.mpr (.inr ⟨hr, by rwa [hf]⟩)
    refine ⟨?_, List.pairwise_cons.mpr ⟨fun b hb hnone => ⟨fun hkey => ?_, ?_⟩, htail⟩⟩
    · intro b hb r hr hnotin
      rw [List.map_cons, List.mem_cons, not_or] at hnotin
      rcases List.mem_cons.mp hb with rfl | hb
      · exact hfa r hr hnotin.1
      · exact hothers b hb r (hstays r hr hnotin.1) hnotin.2
    · have hput : f a ∈ put id (f a) rows := mem_put.mpr (.inl rfl)
      exact hothers b hb (f a) hput (by rwa [hf]) (hkey ▸ hnone) hkey.symm
    · have hne : id b ≠ id a := fun heq => hfresh (heq ▸ List.mem_map_of_mem hb)
      exact hfa b (hsub b (List.mem_cons_of_mem _ hb)) hne hnone

theorem save_isSome_iff (hf : ∀ r, id (f r) = id r) (hsub : ∀ b ∈ as, b ∈ rows)
    (hid : Identified id rows) (hnodup : (as.map id).Nodup) :
    (save id key (as.map f) rows).isSome = true ↔ Writable id key f as rows := by
  induction as generalizing rows with
  | nil => simp [save, Writable]
  | cons a as ih =>
    rw [writable_cons hf hsub hid hnodup, List.map_cons, save]
    obtain ⟨hfresh, hnodup⟩ := List.nodup_cons.mp hnodup
    split
    · next hclash => exact iff_of_false (by simp) fun h => h.1 hclash
    · next hclash =>
      rw [ih ?_ hid.put hnodup]
      · exact (and_iff_right hclash).symm
      · intro b hb
        refine mem_put.mpr (.inr ⟨hsub b (List.mem_cons_of_mem _ hb), fun heq => hfresh ?_⟩)
        rw [hf] at heq
        exact heq ▸ List.mem_map_of_mem hb

end Updates

section Stores

variable {ι κ : Type} [DecidableEq ι] [DecidableEq κ] {id : α → Option ι} {key : α → Option κ}
  {withId : ι → α → α} {fresh : ι} {e : α} {rows' : List α}

-- one row is written under its id, or under a fresh one where it has none
def store (id : α → Option ι) (key : α → Option κ) (withId : ι → α → α) (fresh : ι) (a : α) (rows : List α) :
    Option (List α) :=
  let a := if id a = none then withId fresh a else a
  if Clashes id key a rows then none else some (put id a rows)

-- the row with an id is the new one, and every other row is as it was
structure Rewritten (id : α → Option ι) (i : Option ι) (new : α) (rows rows' : List α) : Prop where
  length : rows'.length = rows.length
  edited : ∀ r ∈ rows', id r = i → r = new
  others : ∀ r, id r ≠ i → (r ∈ rows' ↔ r ∈ rows)

omit [DecidableEq κ] in
theorem length_put : (put id a rows).length = if ∃ r ∈ rows, id r = id a then rows.length else rows.length + 1 := by
  unfold put
  split
  · exact List.length_map _
  · exact List.length_append

theorem store_of_id (h : id a ≠ none) :
    store id key withId fresh a rows = if Clashes id key a rows then none else some (put id a rows) := by
  rw [store, if_neg h]

theorem rewritten_put (he : e ∈ rows) (hid : id a = id e) : Rewritten id (id e) a rows (put id a rows) where
  length := by rw [length_put, if_pos ⟨e, he, hid.symm⟩]
  edited r hr hre := by
    rcases mem_put.mp hr with rfl | ⟨-, hne⟩
    · rfl
    · exact absurd (hre.trans hid.symm) hne
  others r hr := by
    rw [mem_put, hid, and_iff_left hr]
    exact or_iff_right fun heq => hr (by rw [heq, hid])

-- a row is written in the place of another one exactly where it has its id, and no key of a third
theorem store_rewrites_iff (he : e ∈ rows) (hstored : id e ≠ none) (hkey : key a ≠ none)
    (hids : ∀ i a, id (withId i a) = some i) (hkeys : ∀ i a, key (withId i a) = key a)
    (hfresh : ∀ r ∈ rows, id r ≠ some fresh) {new : α} (hnew : key new = key a)
    (hsame : id a = id e → new = a) :
    (∃ rows', store id key withId fresh a rows = some rows' ∧ Rewritten id (id e) new rows rows') ↔
      id a = id e ∧ ∀ r ∈ rows, id r ≠ id e → key r ≠ key a := by
  constructor
  · rintro ⟨rows', hstore, hrewritten⟩
    by_cases hid : id a = id e
    · have hne : id a ≠ none := hid ▸ hstored
      rw [store_of_id hne] at hstore
      split at hstore
      · cases hstore
      · next hclash => exact ⟨hid, fun r hr hre hkeyr => hclash ⟨r, hr, hid ▸ hre, hkey, hkeyr⟩⟩
    · -- the row of e stays, so that it has the key of the new row
      let b := if id a = none then withId fresh a else a
      have hb : id b ≠ id e ∧ key b = key a := by
        by_cases hnone : id a = none
        · have heq : b = withId fresh a := if_pos hnone
          rw [heq, hids, hkeys]
          exact ⟨(hfresh e he).symm, rfl⟩
        · have heq : b = a := if_neg hnone
          rw [heq]
          exact ⟨hid, rfl⟩
      change (if Clashes id key b rows then none else some (put id b rows)) = some rows' at hstore
      split at hstore
      · cases hstore
      · next hclash =>
        cases hstore
        have hstays : e ∈ put id b rows := mem_put.mpr (.inr ⟨he, hb.1.symm⟩)
        have hkeye : key e = key a := by rw [hrewritten.edited e hstays rfl, hnew]
        refine absurd ⟨e, he, hb.1.symm, ?_, ?_⟩ hclash
        · rw [hb.2]
          exact hkey
        · rw [hb.2, hkeye]
  · rintro ⟨hid, hothers⟩
    have hne : id a ≠ none := hid ▸ hstored
    refine ⟨put id a rows, ?_, ?_⟩
    · rw [store_of_id hne, if_neg]
      rintro ⟨r, hr, hre, -, hkeyr⟩
      exact hothers r hr (hid ▸ hre) hkeyr
    · rw [hsame hid]
      exact rewritten_put he hid

end Stores

end Tables
