import Mathlib.Data.List.Flatten
import Mathlib.Data.List.Range
import Mathlib.Logic.Function.Iterate
import Mathlib.Tactic.Common

namespace Unawaited

section Model

variable {ε α : Type}

-- what a callback finds: the second read is made where the first one finds nothing
structure Fetch (ε α : Type) where
  first : Except ε (Option α)
  second : Except ε (Option α)

def Fetch.fetched (l : Fetch ε α) : Except ε (Option α) :=
  match l.first with
  | .error e => .error e
  | .ok (some a) => .ok (some a)
  | .ok none => l.second

def Fetch.record (l : Fetch ε α) : Option α :=
  match l.fetched with
  | .ok r => r
  | .error _ => none

def Fetch.Rejects (l : Fetch ε α) : Prop := ∃ e, l.fetched = .error e

-- the reads that the callback waits for
def Fetch.reads (l : Fetch ε α) : Nat :=
  match l.first with
  | .ok none => 2
  | _ => 1

-- the read that a callback waits for
inductive Stage where
  | first | second | done
deriving DecidableEq

-- a read completes: the callback goes on to its next read, or pushes what it found
def Fetch.next (l : Fetch ε α) : Stage → Stage × List (Option α)
  | .first =>
    match l.first with
    | .error _ => (.done, [])
    | .ok (some a) => (.done, [some a])
    | .ok none => (.second, [])
  | .second =>
    match l.second with
    | .error _ => (.done, [])
    | .ok r => (.done, [r])
  | .done => (.done, [])

structure Filling (α : Type) where
  stage : Nat → Stage := fun _ => .first
  out : List (Option α) := []

def complete (fetches : List (Fetch ε α)) (f : Filling α) (i : Nat) : Filling α :=
  match fetches[i]? with
  | none => f
  | some l =>
    { stage := Function.update f.stage i (l.next (f.stage i)).1
      out := f.out ++ (l.next (f.stage i)).2 }

-- the list after these reads have completed
def filledAfter (fetches : List (Fetch ε α)) (completions : List Nat) : Filling α :=
  completions.foldl (complete fetches) {}

end Model

section Callback

variable {ε α : Type} {l : Fetch ε α} {n : Nat}

def Fetch.stageAt (l : Fetch ε α) : Nat → Stage
  | 0 => .first
  | n + 1 => (l.next (l.stageAt n)).1

-- what n completed reads have pushed
def Fetch.pushed (l : Fetch ε α) : Nat → List (Option α)
  | 0 => []
  | n + 1 => l.pushed n ++ (l.next (l.stageAt n)).2

def Fetch.result (l : Fetch ε α) : List (Option α) :=
  match l.fetched with
  | .ok r => [r]
  | .error _ => []

theorem pushed_of_done {m : Nat} (hdone : l.stageAt n = .done) (hle : n ≤ m) :
    l.stageAt m = .done ∧ l.pushed m = l.pushed n := by
  induction m, hle using Nat.le_induction with
  | base => exact ⟨hdone, rfl⟩
  | succ m _ ih =>
    obtain ⟨hstage, hpushed⟩ := ih
    rw [Fetch.stageAt, Fetch.pushed, hstage, hpushed]
    exact ⟨rfl, List.append_nil _⟩

theorem stageAt_reads : l.stageAt l.reads = .done ∧ l.pushed l.reads = l.result := by
  rcases l with ⟨_ | _ | a, second⟩
  · exact ⟨rfl, rfl⟩
  · cases second with
    | error e => exact ⟨rfl, rfl⟩
    | ok r => exact ⟨rfl, rfl⟩
  · exact ⟨rfl, rfl⟩

theorem pushed_of_pending (h : n < l.reads) : l.pushed n = [] := by
  rcases l with ⟨_ | _ | a, second⟩
  · obtain rfl := Nat.lt_one_iff.mp h
    rfl
  · obtain rfl | rfl : n = 0 ∨ n = 1 := by
      have htwo : n < 2 := h
      omega
    · rfl
    · rfl
  · obtain rfl := Nat.lt_one_iff.mp h
    rfl

theorem pushed_eq : l.pushed n = if l.reads ≤ n then l.result else [] := by
  split
  · next h => rw [(pushed_of_done stageAt_reads.1 h).2, stageAt_reads.2]
  · next h => exact pushed_of_pending (Nat.lt_of_not_le h)

-- the callback has pushed its record, and nothing else, after n completed reads
def Fetch.Timely (l : Fetch ε α) (n : Nat) : Prop :=
  match l.fetched with
  | .ok (some _) => l.reads ≤ n
  | .ok none => n < l.reads
  | .error _ => True

theorem pushed_eq_iff : l.pushed n = l.record.toList.map some ↔ l.Timely n := by
  rw [pushed_eq, Fetch.result, Fetch.record, Fetch.Timely]
  cases l.fetched with
  | error e => simp
  | ok r =>
    cases r with
    | none => simp
    | some a => simp

theorem pushed_sublist (h : none ∉ l.pushed n) : (l.pushed n).Sublist (l.record.toList.map some) := by
  rw [pushed_eq, Fetch.result, Fetch.record] at *
  split at h
  · next hle =>
    rw [if_pos hle]
    cases hfetched : l.fetched with
    | error e => exact List.nil_sublist _
    | ok r =>
      cases r with
      | none =>
        rw [hfetched] at h
        exact absurd (List.mem_singleton_self _) h
      | some a => exact List.Sublist.refl _
  · next hle =>
    rw [if_neg hle]
    exact List.nil_sublist _

end Callback

section Filled

variable {ε α : Type} {fetches : List (Fetch ε α)} {completions : List Nat} {i : Nat} {l : Fetch ε α}

theorem filled_snoc : filledAfter fetches (completions ++ [i]) = complete fetches (filledAfter fetches completions) i := by
  rw [filledAfter, List.foldl_append]
  rfl

theorem stage_filled (h : fetches[i]? = some l) :
    (filledAfter fetches completions).stage i = l.stageAt (completions.count i) := by
  induction completions using List.reverseRecOn with
  | nil => rfl
  | append_singleton completions j ih =>
    rw [filled_snoc, List.count_append, complete]
    obtain rfl | hne := eq_or_ne j i
    · rw [h, List.count_singleton_self, Fetch.stageAt, ← ih]
      exact Function.update_self ..
    · rw [List.count_singleton, if_neg (by simpa using hne), Nat.add_zero, ← ih]
      cases fetches[j]? with
      | none => rfl
      | some l => exact Function.update_of_ne hne.symm ..

-- one of the parts grows at its end
theorem flatMap_perm_snoc {ι β : Type} {f g : ι → List β} {d : List β} {is : List ι} {i : ι} (hnodup : is.Nodup)
    (hi : i ∈ is) (hself : f i = g i ++ d) (hother : ∀ j, j ≠ i → f j = g j) :
    (is.flatMap f).Perm (is.flatMap g ++ d) := by
  obtain ⟨ls, rs, rfl⟩ := List.append_of_mem hi
  obtain ⟨hnotin, -⟩ := List.nodup_cons.mp (List.perm_middle.nodup hnodup)
  have hls : ls.flatMap f = ls.flatMap g :=
    List.flatMap_congr fun j hj => hother j fun heq => hnotin (heq ▸ List.mem_append_left _ hj)
  have hrs : rs.flatMap f = rs.flatMap g :=
    List.flatMap_congr fun j hj => hother j fun heq => hnotin (heq ▸ List.mem_append_right _ hj)
  have hswap : (d ++ rs.flatMap g).Perm (rs.flatMap g ++ d) := List.perm_append_comm
  simp only [List.flatMap_append, List.flatMap_cons, hself, hls, hrs, List.append_assoc]
  exact (hswap.append_left _).append_left _

def pushedBy (fetches : List (Fetch ε α)) (completions : List Nat) (i : Nat) : List (Option α) :=
  (fetches[i]?).elim [] fun l => l.pushed (completions.count i)

theorem filled_perm :
    (filledAfter fetches completions).out.Perm ((List.range fetches.length).flatMap (pushedBy fetches completions)) := by
  induction completions using List.reverseRecOn with
  | nil =>
    refine List.Perm.of_eq (List.flatMap_eq_nil_iff.mpr fun i _ => ?_).symm
    rw [pushedBy]
    cases fetches[i]? <;> rfl
  | append_singleton completions i ih =>
    have hother : ∀ j, j ≠ i → pushedBy fetches (completions ++ [i]) j = pushedBy fetches completions j := by
      intro j hne
      rw [pushedBy, pushedBy, List.count_append, List.count_singleton, if_neg (by simpa using hne.symm), Nat.add_zero]
    rw [filled_snoc, complete]
    cases hl : fetches[i]? with
    | none =>
      refine ih.trans (List.Perm.of_eq (List.flatMap_congr fun j hj => (hother j ?_).symm))
      rintro rfl
      exact absurd (List.getElem?_eq_none_iff.mp hl) (Nat.not_le.mpr (List.mem_range.mp hj))
    | some l =>
      obtain ⟨hlt, -⟩ := List.getElem?_eq_some_iff.mp hl
      rw [stage_filled hl]
      refine (ih.append_right _).trans (flatMap_perm_snoc List.nodup_range (List.mem_range.mpr hlt) ?_ hother).symm
      rw [pushedBy, pushedBy, hl, List.count_append, List.count_singleton_self]
      rfl

theorem flatMap_eq_of_length {ι β : Type} {f g : ι → List β} {is : List ι} (hsub : ∀ i ∈ is, (f i).Sublist (g i))
    (hlength : (is.flatMap f).length = (is.flatMap g).length) : ∀ i ∈ is, f i = g i := by
  induction is with
  | nil => exact fun i hi => absurd hi List.not_mem_nil
  | cons i is ih =>
    obtain ⟨hi, his⟩ := List.forall_mem_cons.mp hsub
    rw [List.flatMap_cons, List.flatMap_cons, List.length_append, List.length_append] at hlength
    have hfirst := hi.length_le
    have hrest := (List.Sublist.flatMap_right is his).length_le
    exact List.forall_mem_cons.mpr ⟨hi.eq_of_length (by omega), ih his (by omega)⟩

theorem flatMap_range {β γ : Type} (f : β → List γ) (xs : List β) :
    xs.flatMap f = (List.range xs.length).flatMap fun i => (xs[i]?).elim [] f := by
  induction xs with
  | nil => rfl
  | cons x xs ih =>
    rw [List.flatMap_cons, ih, List.length_cons, List.range_succ_eq_map, List.flatMap_cons, List.flatMap_map]
    rfl

def recordBy (fetches : List (Fetch ε α)) (i : Nat) : List (Option α) :=
  (fetches[i]?).elim [] fun l => l.record.toList.map some

theorem records_eq : (fetches.filterMap Fetch.record).map some = (List.range fetches.length).flatMap (recordBy fetches) := by
  rw [List.filterMap_eq_flatMap_toList, List.map_flatMap, flatMap_range]
  rfl

theorem pushedBy_eq_iff : (∀ i ∈ List.range fetches.length, pushedBy fetches completions i = recordBy fetches i) ↔
    ∀ i l, fetches[i]? = some l → Fetch.Timely l (completions.count i) := by
  refine forall_congr' fun i => ⟨fun h l hl => ?_, fun h hi => ?_⟩
  · have heq := h (List.mem_range.mpr (List.getElem?_eq_some_iff.mp hl).1)
    rw [pushedBy, recordBy, hl] at heq
    exact pushed_eq_iff.mp heq
  · rw [pushedBy, recordBy]
    cases hl : fetches[i]? with
    | none => rfl
    | some l => exact pushed_eq_iff.mpr (h l hl)

-- exactly the records have been pushed
theorem filled_perm_records :
    (filledAfter fetches completions).out.Perm ((fetches.filterMap Fetch.record).map some) ↔
      ∀ i l, fetches[i]? = some l → Fetch.Timely l (completions.count i) := by
  rw [filled_perm.congr_left, records_eq, ← pushedBy_eq_iff]
  constructor
  · intro h
    refine flatMap_eq_of_length (fun i hi => ?_) h.length_eq
    -- what is pushed is among the records, so no read has found nothing
    have hsome : none ∉ pushedBy fetches completions i := by
      intro hnone
      have hmem := h.mem_iff.mp (List.mem_flatMap.mpr ⟨i, hi, hnone⟩)
      rw [← records_eq] at hmem
      obtain ⟨a, -, ha⟩ := List.mem_map.mp hmem
      cases ha
    rw [pushedBy] at hsome ⊢
    rw [recordBy]
    cases hl : fetches[i]? with
    | none => exact List.nil_sublist _
    | some l =>
      rw [hl] at hsome
      exact pushed_sublist hsome
  · exact fun h => List.Perm.of_eq (List.flatMap_congr h)

end Filled

end Unawaited
