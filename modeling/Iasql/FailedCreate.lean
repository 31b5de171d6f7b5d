import Iasql.MemoCoherence

namespace Iasql.Shared

variable {V : Type}

-- the entries of s, with the property values they had in s
structure Untouched (s t : Memory V) : Prop where
  entries : t.memo = s.memo
  values : ∀ p ∈ s.memo.entries, t.heap.objects p.2 = s.heap.objects p.2

namespace Crud

section Reserved

variable (c : Crud V)

-- createFn is called with the entities memoised, and leaves this
def creation (createFn : CreateFn V) (e : Entities) (s : Memory V) :
    Creation (c.memoEach e.es s).2.heap :=
  createFn (e.inArray (c.memoEach e.es s).1) (c.memoEach e.es s).2.heap

def finalIds (createFn : CreateFn V) (e : Entities) (s : Memory V) : List String :=
  ((e.inArray (c.creation createFn e s).es).map (c.creation createFn e s).heap.objects).map
    c.entityId

structure Undone (createFn : CreateFn V) (e : Entities) (s : Memory V) : Prop where
  -- no entity ends with an id that was memoised before
  spared : ∀ k ∈ s.memo.keys, k ∉ c.finalIds createFn e s
  -- an id that was reserved for an entity is still the id of one
  freed : ∀ k ∈ (c.memoEach e.es s).2.memo.keys, k ∉ s.memo.keys → k ∈ c.finalIds createFn e s
  -- what a merge or createFn wrote to an object memoised before is put back
  restored : ∀ p ∈ s.memo.entries,
    (c.creation createFn e s).heap.objects p.2 = s.heap.objects p.2

variable {c} {createFn : CreateFn V} {e : Entities} {s t : Memory V} {err : Thrown}

theorem create_of_throw (h : (c.create createFn e s).1 = .error err) :
    (c.create createFn e s).2 =
      ⟨(c.creation createFn e s).heap,
        (c.memoEach e.es s).2.memo.eraseAll (c.finalIds createFn e s)⟩ := by
  rw [Crud.create] at h ⊢
  split at h
  · cases h
  · rfl

theorem memoOne_appends (r : Ref) (s : Memory V) :
    ∃ extra, (c.memoOne r s).2.memo.entries = s.memo.entries ++ extra := by
  cases hget : s.memo.get? (c.entityId (s.heap.objects r)) with
  | none =>
    rw [memoOne_of_none hget]
    exact ⟨_, Dict.entries_set_of_absent hget⟩
  | some realE =>
    rw [memoOne_of_some hget]
    exact ⟨[], (List.append_nil _).symm⟩

theorem memoEach_appends (es : List Ref) (s : Memory V) :
    ∃ extra, (c.memoEach es s).2.memo.entries = s.memo.entries ++ extra := by
  induction es generalizing s with
  | nil => exact ⟨[], (List.append_nil _).symm⟩
  | cons r es ih =>
    obtain ⟨one, hone⟩ := memoOne_appends (c := c) r s
    obtain ⟨rest, hrest⟩ := ih (c.memoOne r s).2
    refine ⟨one ++ rest, ?_⟩
    rw [← List.append_assoc, ← hone]
    exact hrest

theorem erased_iff {ks : List String} (es : List Ref) (s : Memory V) :
    (c.memoEach es s).2.memo.eraseAll ks = s.memo ↔
      (∀ k ∈ s.memo.keys, k ∉ ks) ∧
        ∀ k ∈ (c.memoEach es s).2.memo.keys, k ∉ s.memo.keys → k ∈ ks := by
  obtain ⟨extra, hextra⟩ := memoEach_appends (c := c) es s
  have hkeys : (c.memoEach es s).2.memo.keys = s.memo.keys ++ OrderedMap.keys extra := by
    rw [Dict.keys, hextra]
    exact List.map_append
  have hnodup : (s.memo.keys ++ OrderedMap.keys extra).Nodup :=
    hkeys ▸ (c.memoEach es s).2.memo.nodup
  rw [Dict.eraseAll_eq_iff hextra]
  refine and_congr_right fun _ => ⟨fun h k hk hnot => ?_, fun h k hk => ?_⟩
  · rw [hkeys] at hk
    exact h k ((List.mem_append.mp hk).resolve_left hnot)
  · refine h k (hkeys ▸ List.mem_append_right _ hk) fun hold => ?_
    exact (List.nodup_append.mp hnodup).2.2 k hold k hk rfl

end Reserved

section Fresh

variable {c : Crud V} {createFn : CreateFn V} {e : Entities} {s : Memory V}

theorem memoEach_of_fresh {es : List Ref} {s : Memory V}
    (hfresh : ∀ r ∈ es, c.entityId (s.heap.objects r) ∉ s.memo.keys)
    (hdistinct : (es.map fun r => c.entityId (s.heap.objects r)).Nodup) :
    (c.memoEach es s).1 = es ∧ (c.memoEach es s).2.heap = s.heap ∧
      (c.memoEach es s).2.memo.keys =
        s.memo.keys ++ es.map fun r => c.entityId (s.heap.objects r) := by
  induction es generalizing s with
  | nil => exact ⟨rfl, rfl, (List.append_nil _).symm⟩
  | cons r es ih =>
    have habsent := Dict.get?_eq_none.mpr (hfresh r (by simp))
    obtain ⟨hhead, htail⟩ := List.nodup_cons.mp hdistinct
    have hkeys : (s.memo.set (c.entityId (s.heap.objects r)) r).keys =
        s.memo.keys ++ [c.entityId (s.heap.objects r)] := by
      rw [Dict.keys, Dict.entries_set_of_absent habsent]
      exact List.map_append
    rw [Crud.memoEach, memoOne_of_none habsent]
    obtain ⟨harray, hheap, hrest⟩ :=
      @ih { s with memo := s.memo.set (c.entityId (s.heap.objects r)) r } (fun q hq hmem => by
        rcases List.mem_append.mp (hkeys ▸ hmem) with hold | hnew
        · exact hfresh q (by simp [hq]) hold
        · exact hhead (List.mem_map.mpr ⟨q, hq, List.mem_singleton.mp hnew⟩)) htail
    refine ⟨congrArg (r :: ·) harray, hheap, hrest.trans ?_⟩
    rw [hkeys, List.append_assoc]
    rfl

theorem undone_of_fresh
    (hfresh : ∀ r ∈ e.es, c.entityId (s.heap.objects r) ∉ s.memo.keys)
    (hdistinct : (e.es.map fun r => c.entityId (s.heap.objects r)).Nodup)
    (hids : c.finalIds createFn e s = e.es.map fun r => c.entityId (s.heap.objects r))
    (hothers : ∀ p ∈ s.memo.entries,
      (c.creation createFn e s).heap.objects p.2 = s.heap.objects p.2) :
    c.Undone createFn e s := by
  refine ⟨fun k hk hmem => ?_, fun k hk hnot => ?_, hothers⟩
  · rw [hids] at hmem
    obtain ⟨r, hr, rfl⟩ := List.mem_map.mp hmem
    exact hfresh r hr hk
  · rw [(memoEach_of_fresh hfresh hdistinct).2.2] at hk
    rw [hids]
    exact (List.mem_append.mp hk).resolve_left hnot

end Fresh

end Crud

section Topics

open EntityIds

-- createFn assigns col and then throws
def throwing (col : String) (v : V) (err : Thrown) : CreateFn V := fun es h =>
  { heap := h.write es col v
    grows := h.next_write es col v
    out := .error err
    known := fun _ ho => by cases ho
    es := es }

def unavailable : Thrown := .error "Service unavailable"

def topicBuilt : Memory ColumnValue := topics.call noMemory (.build newTopic)

def topicListed : Memory ColumnValue :=
  topics.call (topics.call noMemory (.build (listedTopic "arn:1")))
    (.read (finding (listedTopic "arn:1")) none)

def secondBuilt : Memory ColumnValue := topics.call topicListed (.build (listedTopic "arn:2"))

end Topics

end Iasql.Shared
