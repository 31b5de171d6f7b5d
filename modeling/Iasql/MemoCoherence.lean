import Iasql.EntityIds
import Iasql.Shared

namespace Iasql.Shared

variable {V : Type}

namespace Memory

def Known (s : Memory V) : Prop := ∀ k e, (k, e) ∈ s.memo.entries → e < s.heap.next

theorem Known.kept {s : Memory V} {h' : Heap V} {memo : Dict String Ref} (h : s.Known)
    (hnext : s.heap.next ≤ h'.next) (hsub : ∀ p ∈ memo.entries, p ∈ s.memo.entries) :
    Known ⟨h', memo⟩ := fun k e hmem => (h k e (hsub _ hmem)).trans_le hnext

end Memory

-- the entities a call is given exist
def Call.Given (s : Memory V) : Call V → Prop
  | .create _ e | .update _ e | .delete _ e => ∀ r ∈ e.es, r < s.heap.next
  | _ => True

namespace Crud

variable (c : Crud V)

structure Coherent (s : Memory V) : Prop where
  keyed : ∀ k e, (k, e) ∈ s.memo.entries → c.entityId (s.heap.objects e) = k
  full : ∀ k e, (k, e) ∈ s.memo.entries → s.heap.objects e ≠ ∅
  apart : ∀ k e l f, (k, e) ∈ s.memo.entries → (l, f) ∈ s.memo.entries →
    e = f ∨ c.entityId (s.heap.objects e) = c.entityId (s.heap.objects f) → k = l

def Settled (s : Memory V) (k : String) (e : Ref) : Prop :=
  c.entityId (s.heap.objects e) = k ∧ s.heap.objects e ≠ ∅

-- the entry of a read in progress may still be the empty placeholder
def Pending (pend : Option String) (s : Memory V) : Prop :=
  ∀ k e, (k, e) ∈ s.memo.entries → c.Settled s k e ∨ pend = some k ∧ s.heap.objects e = ∅

-- the records are not empty, and merging one into the memoised record of its id keeps that id
def Merges : List Ref → Memory V → Prop
  | [], _ => True
  | e :: es, s =>
    s.heap.objects e ≠ ∅ ∧
    (∀ realE ∈ s.memo.get? (c.entityId (s.heap.objects e)),
      c.entityId ((s.heap.objects realE).assign (s.heap.objects e)) =
        c.entityId (s.heap.objects e)) ∧
    Merges es (c.memoOne e s).2

def Keeps (memo : Dict String Ref) (h h' : Heap V) : Prop :=
  ∀ p ∈ memo.entries,
    c.entityId (h'.objects p.2) = c.entityId (h.objects p.2) ∧ h'.objects p.2 ≠ ∅

instance decMerges [DecidableEq V] : ∀ es s, Decidable (c.Merges es s)
  | [], _ => isTrue trivial
  | e :: es, s =>
    have : Decidable (c.Merges es (c.memoOne e s).2) := decMerges es _
    inferInstanceAs (Decidable (_ ∧ _ ∧ _))

instance [DecidableEq V] (memo : Dict String Ref) (h h' : Heap V) : Decidable (c.Keeps memo h h') :=
  inferInstanceAs (Decidable (∀ p ∈ memo.entries, _ ∧ _))

variable {c} {pend : Option String} {s t : Memory V} {e f : Ref} {es : List Ref}

theorem coherent_iff : c.Coherent s ↔ c.Pending none s := by
  constructor
  · intro h k e hmem
    exact .inl ⟨h.keyed k e hmem, h.full k e hmem⟩
  · intro h
    have hsettled : ∀ k e, (k, e) ∈ s.memo.entries → c.Settled s k e := fun k e hmem =>
      (h k e hmem).resolve_right fun hpend => by cases hpend.1
    refine ⟨fun k e hmem => (hsettled k e hmem).1, fun k e hmem => (hsettled k e hmem).2, ?_⟩
    rintro k e l f he hf (rfl | hid)
    · exact (hsettled k e he).1.symm.trans (hsettled l e hf).1
    · exact (hsettled k e he).1.symm.trans (hid.trans (hsettled l f hf).1)

section Pass

theorem memoOne_of_none (h : s.memo.get? (c.entityId (s.heap.objects e)) = none) :
    c.memoOne e s = (e, { s with memo := s.memo.set (c.entityId (s.heap.objects e)) e }) := by
  rw [memoOne, h]

theorem memoOne_of_some {realE : Ref}
    (h : s.memo.get? (c.entityId (s.heap.objects e)) = some realE) :
    c.memoOne e s = (realE, { s with heap := s.heap.assign realE e }) := by
  rw [memoOne, h]

theorem assign_objects_self (h : Heap V) (realE e : Ref) :
    (h.assign realE e).objects realE = (h.objects realE).assign (h.objects e) :=
  Function.update_self realE _ h.objects

theorem assign_objects_ne (h : Heap V) {realE e : Ref} (hne : f ≠ realE) :
    (h.assign realE e).objects f = h.objects f := Function.update_of_ne hne _ h.objects

theorem Pending.key_unique (h : c.Pending pend s) {k l : String}
    (hk : (k, e) ∈ s.memo.entries) (hl : (l, e) ∈ s.memo.entries) : k = l := by
  rcases h k e hk with hk | ⟨hk, hempty⟩
  · rcases h l e hl with hl | ⟨-, hempty⟩
    · exact hk.1.symm.trans hl.1
    · exact absurd hempty hk.2
  · rcases h l e hl with hl | ⟨hl, -⟩
    · exact absurd hempty hl.2
    · exact Option.some.inj (hk.symm.trans hl)

theorem Pending.memoOne (h : c.Pending pend s) (hm : c.Merges (e :: es) s) :
    c.Pending pend (c.memoOne e s).2 := by
  obtain ⟨hfull, hmerge, -⟩ := hm
  cases hget : s.memo.get? (c.entityId (s.heap.objects e)) with
  | none =>
    rw [memoOne_of_none hget]
    intro k f hmem
    rcases Dict.mem_set.mp hmem with ⟨rfl, rfl⟩ | ⟨-, hold⟩
    · exact .inl ⟨rfl, hfull⟩
    · exact h k f hold
  | some realE =>
    rw [memoOne_of_some hget]
    intro k f hmem
    by_cases hf : f = realE
    · subst hf
      obtain rfl := h.key_unique hmem (Dict.get?_eq_some.mp hget)
      refine .inl ⟨?_, ?_⟩
      · exact (congrArg c.entityId (assign_objects_self s.heap f e)).trans (hmerge f hget)
      · exact fun hempty =>
          Dict.assign_ne_empty hfull ((assign_objects_self s.heap f e).symm.trans hempty)
    · rw [Settled, assign_objects_ne s.heap hf]
      exact h k f hmem

theorem Pending.memoEach (h : c.Pending pend s) (hm : c.Merges es s) :
    c.Pending pend (c.memoEach es s).2 := by
  induction es generalizing s with
  | nil => exact h
  | cons e es ih => exact ih (h.memoOne hm) hm.2.2

theorem known_memoOne (h : s.Known) (he : e < s.heap.next) :
    (c.memoOne e s).2.Known ∧ (c.memoOne e s).2.heap.next = s.heap.next := by
  cases hget : s.memo.get? (c.entityId (s.heap.objects e)) with
  | none =>
    rw [memoOne_of_none hget]
    refine ⟨fun k f hmem => ?_, rfl⟩
    rcases Dict.mem_set.mp hmem with ⟨rfl, rfl⟩ | ⟨-, hold⟩
    · exact he
    · exact h k f hold
  | some realE =>
    rw [memoOne_of_some hget]
    exact ⟨h, rfl⟩

theorem known_memoEach (h : s.Known) (hes : ∀ e ∈ es, e < s.heap.next) :
    (c.memoEach es s).2.Known ∧ (c.memoEach es s).2.heap.next = s.heap.next := by
  induction es generalizing s with
  | nil => exact ⟨h, rfl⟩
  | cons e es ih =>
    obtain ⟨hknown, hnext⟩ := known_memoOne (c := c) h (hes e (by simp))
    obtain ⟨hrest, hnext'⟩ := ih hknown (fun f hf => hnext ▸ hes f (by simp [hf]))
    exact ⟨hrest, hnext'.trans hnext⟩

theorem Pending.memoEach_settles {id : String} (h : c.Pending (some id) s)
    (hkey : id ∈ s.memo.keys) (hm : c.Merges es s)
    (hid : ∃ e ∈ es, c.entityId (s.heap.objects e) = id) :
    c.Pending none (c.memoEach es s).2 := by
  induction es generalizing s with
  | nil =>
    obtain ⟨e, hmem, -⟩ := hid
    cases hmem
  | cons e es ih =>
    have hnext := h.memoOne hm
    obtain ⟨p, hp⟩ := Dict.mem_keys.mp hkey
    by_cases he : c.entityId (s.heap.objects e) = id
    · have hsettled : c.Pending none (c.memoOne e s).2 := by
        intro k f hmem
        refine (hnext k f hmem).imp_right fun ⟨hk, hempty⟩ => ?_
        obtain rfl := Option.some.inj hk
        have hget : s.memo.get? (c.entityId (s.heap.objects e)) = some p := by
          rw [he, Dict.get?_eq_some]
          exact hp
        rw [memoOne_of_some hget] at hmem hempty
        obtain rfl := Dict.mem_unique hmem hp
        exact absurd ((assign_objects_self s.heap f e).symm.trans hempty)
          (Dict.assign_ne_empty hm.1)
      exact hsettled.memoEach hm.2.2
    · obtain ⟨x, hx, hxid⟩ := hid
      have hx : x ∈ es := (List.mem_cons.mp hx).resolve_left fun heq => he (heq ▸ hxid)
      cases hget : s.memo.get? (c.entityId (s.heap.objects e)) with
      | none =>
        have hrest := hm.2.2
        rw [memoOne_of_none hget] at hnext hrest
        have hkey' : id ∈ (s.memo.set (c.entityId (s.heap.objects e)) e).keys :=
          Dict.mem_keys.mpr ⟨p, Dict.mem_set.mpr (.inr ⟨fun heq => he heq.symm, hp⟩)⟩
        rw [Crud.memoEach, memoOne_of_none hget]
        exact ih hnext hkey' hrest ⟨x, hx, hxid⟩
      | some realE =>
        have hrest := hm.2.2
        rw [memoOne_of_some hget] at hnext hrest
        have hne : x ≠ realE := by
          rintro rfl
          rcases h _ _ (Dict.get?_eq_some.mp hget) with hsettled | ⟨hpend, -⟩
          · exact he (hsettled.1.symm.trans hxid)
          · exact he (Option.some.inj hpend).symm
        rw [Crud.memoEach, memoOne_of_some hget]
        refine ih hnext hkey hrest ⟨x, hx, ?_⟩
        rw [assign_objects_ne s.heap hne]
        exact hxid

end Pass

section Steps

def refs : Option Entities → List Ref
  | none => []
  | some entities => entities.es

variable (c) in
def Answers {h : Heap V} (memo : Dict String Ref) (reply : Reply h) (out : Option Entities) :
    Prop :=
  c.Keeps memo h reply.heap ∧ c.Merges (refs out) ⟨reply.heap, memo⟩

variable (c) in
-- readFn is called with a new placeholder under id
def Fetches (readFn : ReadFn V) (id : String) (s : Memory V) : Prop :=
  let reply := readFn (some id) (place id s).heap
  let called : Memory V := ⟨reply.heap, (place id s).memo⟩
  c.Keeps s.memo s.heap reply.heap ∧ ∀ out, reply.out = .ok (some out) → out.es ≠ [] →
    c.Merges out.es called ∧ (c.Settled called id s.heap.next ∨
      reply.heap.objects s.heap.next = ∅ ∧
        ∃ o ∈ out.es, c.entityId (reply.heap.objects o) = id)

variable (c) in
-- what is memoised and stays so keeps its id, and a read by id returns a record of that id
def Steady (s : Memory V) : Call V → Prop
  | .build _ => True
  | .flush => True
  | .create createFn e =>
    let reserved := c.memoEach e.es s
    let reply := createFn (e.inArray reserved.1) reserved.2.heap
    let ids := ((e.inArray reply.es).map reply.heap.objects).map c.entityId
    c.Merges e.es s ∧ match reply.out with
      | .ok out => c.Answers reserved.2.memo reply.toReply out
      | .error _ => c.Keeps (reserved.2.memo.eraseAll ids) reserved.2.heap reply.heap
  | .read readFn id =>
    match id.filter (· != "") with
    | some id => s.memo.get? id = none → c.Fetches readFn id s
    | none =>
      match (readFn none s.heap).out with
      | .ok out => c.Answers s.memo (readFn none s.heap) out
      | .error _ => c.Keeps s.memo s.heap (readFn none s.heap).heap
  | .update updateFn e =>
    match (updateFn e.es s.heap).out with
    | .ok out => c.Answers s.memo (updateFn e.es s.heap) out
    | .error _ => c.Keeps s.memo s.heap (updateFn e.es s.heap).heap
  | .delete deleteFn e =>
    match (deleteFn e.es s.heap).out with
    | .ok _ => c.Keeps (s.memo.eraseAll ((e.es.map s.heap.objects).map c.entityId)) s.heap
        (deleteFn e.es s.heap).heap
    | .error _ => c.Keeps s.memo s.heap (deleteFn e.es s.heap).heap

theorem memo_snd (out : Option Entities) (input : Input) (s : Memory V) :
    (c.memo out input s).2 = (c.memoEach (refs out) s).2 := by
  cases out with
  | none => rfl
  | some entities =>
    rw [Crud.memo]
    split <;> rfl

theorem Coherent.kept {h' : Heap V} {memo : Dict String Ref} (h : c.Coherent s)
    (hk : c.Keeps memo s.heap h') (hsub : ∀ p ∈ memo.entries, p ∈ s.memo.entries) :
    c.Coherent ⟨h', memo⟩ := by
  rw [coherent_iff]
  intro k e hmem
  obtain ⟨hid, hfull⟩ := hk (k, e) hmem
  exact .inl ⟨hid.trans (h.keyed k e (hsub _ hmem)), hfull⟩

theorem Coherent.memoEach (h : c.Coherent s) (hm : c.Merges es s) :
    c.Coherent (c.memoEach es s).2 :=
  coherent_iff.mpr (Pending.memoEach (coherent_iff.mp h) hm)

theorem Coherent.answered {out : Option Entities} {input : Input} {reply : Reply s.heap}
    (h : c.Coherent s) (ha : c.Answers s.memo reply out) :
    c.Coherent (c.memo out input ⟨reply.heap, s.memo⟩).2 := by
  rw [memo_snd]
  exact (h.kept ha.1 fun _ => id).memoEach ha.2

theorem mem_of_eraseAll {memo : Dict String Ref} {ks : List String} {p : String × Ref}
    (h : p ∈ (memo.eraseAll ks).entries) : p ∈ memo.entries := (Dict.mem_eraseAll.mp h).1

theorem Coherent.create {createFn : CreateFn V} {e : Entities} (h : c.Coherent s)
    (hs : c.Steady s (.create createFn e)) : c.Coherent (c.create createFn e s).2 := by
  obtain ⟨hm, hreply⟩ := hs
  have hreserved := h.memoEach hm
  rw [Crud.create]
  split
  · next out hout =>
    rw [hout] at hreply
    exact hreserved.answered hreply
  · next err hout =>
    rw [hout] at hreply
    exact hreserved.kept hreply fun _ => mem_of_eraseAll

theorem Coherent.update {updateFn : UpdateFn V} {e : Entities} (h : c.Coherent s)
    (hs : c.Steady s (.update updateFn e)) : c.Coherent (c.update updateFn e s).2 := by
  rw [Steady] at hs
  rw [Crud.update]
  split
  · next out hout =>
    rw [hout] at hs
    exact h.answered hs
  · next err hout =>
    rw [hout] at hs
    exact h.kept hs fun _ => id

theorem Coherent.delete {deleteFn : DeleteFn V} {e : Entities} (h : c.Coherent s)
    (hs : c.Steady s (.delete deleteFn e)) : c.Coherent (c.delete deleteFn e s).2 := by
  rw [Steady] at hs
  rw [Crud.delete]
  split
  · next err hout =>
    rw [hout] at hs
    exact h.kept hs fun _ => id
  · next out hout =>
    rw [hout] at hs
    exact h.kept hs fun _ => mem_of_eraseAll

theorem Coherent.readAll {readFn : ReadFn V} (h : c.Coherent s)
    (hs : c.Steady s (.read readFn none)) : c.Coherent (c.readAll readFn s).2 := by
  change (match (readFn none s.heap).out with
    | .ok out => c.Answers s.memo (readFn none s.heap) out
    | .error _ => c.Keeps s.memo s.heap (readFn none s.heap).heap) at hs
  rw [Crud.readAll]
  split
  · next err hout =>
    rw [hout] at hs
    exact h.kept hs fun _ => id
  · next hout =>
    rw [hout] at hs
    exact h.kept hs.1 fun _ => id
  · next out hout =>
    rw [hout] at hs
    split
    · exact h.kept hs.1 fun _ => id
    · exact h.answered hs

theorem fetch_cases (readFn : ReadFn V) (id : String) (s : Memory V) :
    (c.fetch readFn id s).2 = forget id ⟨(readFn (some id) s.heap).heap, s.memo⟩ ∨
    ∃ out, (readFn (some id) s.heap).out = .ok (some out) ∧ out.es ≠ [] ∧
      (c.fetch readFn id s).2 =
        (c.memoEach out.es ⟨(readFn (some id) s.heap).heap, s.memo⟩).2 := by
  rw [Crud.fetch]
  split
  · exact .inl rfl
  · exact .inl rfl
  · exact .inl rfl
  · next o hout => exact .inr ⟨_, hout, by simp [Entities.es], memo_snd _ _ _⟩
  · next o hout => exact .inr ⟨_, hout, by simp [Entities.es], memo_snd _ _ _⟩
  · next os hnil _ hout =>
    refine .inr ⟨_, hout, ?_, memo_snd _ _ _⟩
    exact hnil

theorem mem_place {id k : String} (h : (k, e) ∈ (place id s).memo.entries) :
    k = id ∧ e = s.heap.next ∨ k ≠ id ∧ (k, e) ∈ s.memo.entries := Dict.mem_set.mp h

theorem Coherent.fetch {readFn : ReadFn V} {id : String} (h : c.Coherent s)
    (hs : c.Fetches readFn id s) :
    c.Coherent (c.fetch readFn id (place id s)).2 := by
  obtain ⟨hkeeps, hout⟩ := hs
  rcases fetch_cases (c := c) readFn id (place id s) with heq | ⟨out, hok, hne, heq⟩
  · rw [heq]
    have hold : ∀ k e, (k, e) ∈ ((place id s).memo.eraseAll [id]).entries →
        (k, e) ∈ s.memo.entries := by
      intro k e hmem
      obtain ⟨hmem, hnot⟩ := Dict.mem_eraseAll.mp hmem
      exact ((mem_place hmem).resolve_left fun hk => hnot (by simp [hk.1])).2
    exact h.kept (fun _ hmem => hkeeps _ (hold _ _ hmem)) fun ⟨k, e⟩ hmem => hold k e hmem
  · obtain ⟨hm, hplaceholder⟩ := hout out hok hne
    rw [heq, coherent_iff]
    have hothers : ∀ k e, (k, e) ∈ s.memo.entries →
        c.Settled ⟨(readFn (some id) (place id s).heap).heap, (place id s).memo⟩ k e := by
      intro k e hmem
      obtain ⟨hid, hfull⟩ := hkeeps (k, e) hmem
      exact ⟨hid.trans (h.keyed k e hmem), hfull⟩
    rcases hplaceholder with hsettled | ⟨hempty, hid⟩
    · refine Pending.memoEach (fun k e hmem => ?_) hm
      rcases mem_place hmem with ⟨rfl, rfl⟩ | ⟨-, hold⟩
      · exact .inl hsettled
      · exact .inl (hothers k e hold)
    · have hpending : c.Pending (some id)
          ⟨(readFn (some id) (place id s).heap).heap, (place id s).memo⟩ := by
        intro k e hmem
        rcases mem_place hmem with ⟨rfl, rfl⟩ | ⟨-, hold⟩
        · exact .inr ⟨rfl, hempty⟩
        · exact .inl (hothers k e hold)
      refine hpending.memoEach_settles ?_ hm hid
      exact Dict.mem_keys.mpr ⟨s.heap.next, Dict.mem_set.mpr (.inl ⟨rfl, rfl⟩)⟩

theorem Coherent.readById {readFn : ReadFn V} {id : String} (h : c.Coherent s)
    (hs : s.memo.get? id = none → c.Fetches readFn id s) :
    c.Coherent (c.readById readFn id s).2 := by
  rw [Crud.readById]
  split
  · next habsent => exact h.fetch (hs habsent)
  · next e hget =>
    have hfull := h.full id e (Dict.get?_eq_some.mp hget)
    have hkeys : (s.heap.objects e).keys ≠ [] := fun hnil =>
      hfull (Dict.entries_eq_nil.mp (List.map_eq_nil_iff.mp hnil))
    rw [if_neg hkeys]
    exact h

theorem Coherent.call {a : Call V} (h : c.Coherent s) (hknown : s.Known) (hs : c.Steady s a) :
    c.Coherent (c.call s a) := by
  cases a with
  | build e =>
    rw [coherent_iff] at h ⊢
    intro k f hmem
    have hne : f ≠ s.heap.next := (hknown k f hmem).ne
    have hobject : (s.heap.alloc e).objects f = s.heap.objects f := Function.update_of_ne hne _ _
    have hsettled := h k f hmem
    rw [Settled, ← hobject] at hsettled
    exact hsettled
  | flush => exact ⟨by simp [Crud.call], by simp [Crud.call], by simp [Crud.call]⟩
  | create createFn e => exact h.create hs
  | read readFn id =>
    rw [Steady] at hs
    rw [Crud.call, Crud.read]
    split
    · next id hid =>
      rw [hid] at hs
      exact h.readById hs
    · next hid =>
      rw [hid] at hs
      exact h.readAll hs
  | update updateFn e => exact h.update hs
  | delete deleteFn e => exact h.delete hs

end Steps

section Known

theorem known_memo {out : Option Entities} {input : Input} {reply : Reply s.heap} (h : s.Known)
    (hout : reply.out = .ok out) : (c.memo out input ⟨reply.heap, s.memo⟩).2.Known := by
  rw [memo_snd]
  refine (known_memoEach (h.kept reply.grows fun _ => id) fun e he => ?_).1
  cases out with
  | none => cases he
  | some entities => exact reply.known entities hout e he

theorem known_create {createFn : CreateFn V} {e : Entities} (h : s.Known)
    (he : ∀ r ∈ e.es, r < s.heap.next) : (c.create createFn e s).2.Known := by
  have hreserved := (known_memoEach (c := c) h he).1
  rw [Crud.create]
  split
  · next out hout => exact known_memo hreserved hout
  · exact hreserved.kept (Creation.toReply _).grows fun _ => mem_of_eraseAll

theorem known_update {updateFn : UpdateFn V} {e : Entities} (h : s.Known) :
    (c.update updateFn e s).2.Known := by
  rw [Crud.update]
  split
  · next out hout => exact known_memo h hout
  · exact h.kept (updateFn e.es s.heap).grows fun _ => id

theorem known_delete {deleteFn : DeleteFn V} {e : Entities} (h : s.Known) :
    (c.delete deleteFn e s).2.Known := by
  rw [Crud.delete]
  split
  · exact h.kept (deleteFn e.es s.heap).grows fun _ => id
  · exact h.kept (deleteFn e.es s.heap).grows fun _ => mem_of_eraseAll

theorem known_readAll {readFn : ReadFn V} (h : s.Known) : (c.readAll readFn s).2.Known := by
  have hcalled := h.kept (readFn none s.heap).grows fun _ => id
  rw [Crud.readAll]
  split
  · exact hcalled
  · exact hcalled
  · next out hout =>
    split
    · exact hcalled
    · exact known_memo h hout

theorem known_fetch {readFn : ReadFn V} {id : String} (h : s.Known) :
    (c.fetch readFn id s).2.Known := by
  have hgrows := (readFn (some id) s.heap).grows
  rcases fetch_cases (c := c) readFn id s with heq | ⟨out, hok, -, heq⟩
  · rw [heq]
    exact h.kept hgrows fun _ => mem_of_eraseAll
  · rw [heq]
    exact (known_memoEach (h.kept hgrows fun _ hmem => hmem)
      ((readFn (some id) s.heap).known out hok)).1

theorem known_place {id : String} (h : s.Known) : (place id s).Known := by
  intro k e hmem
  rcases mem_place hmem with ⟨-, rfl⟩ | ⟨-, hold⟩
  · exact Nat.lt_succ_self _
  · exact (h k e hold).trans (Nat.lt_succ_self _)

theorem known_readById {readFn : ReadFn V} {id : String} (h : s.Known) :
    (c.readById readFn id s).2.Known := by
  rw [Crud.readById]
  split
  · exact known_fetch (known_place h)
  · split
    · exact known_fetch h
    · exact h

theorem known_call {a : Call V} (h : s.Known) (hgiven : a.Given s) : (c.call s a).Known := by
  cases a with
  | build e => exact fun k f hmem => (h k f hmem).trans (Nat.lt_succ_self _)
  | flush => exact fun k f hmem => by cases hmem
  | create createFn e => exact known_create h hgiven
  | read readFn id =>
    rw [Crud.call, Crud.read]
    split
    · exact known_readById h
    · exact known_readAll h
  | update updateFn e => exact known_update h
  | delete deleteFn e => exact known_delete h

end Known

section Runs

variable (c) in
abbrev CallRun (ok : Memory V → Call V → Prop) : Memory V → Prop :=
  Runs.RunFrom (fun s => s.memo = ∅) (fun s a t => a.Given s ∧ t = c.call s a) ok

theorem coherent_of_run (h : c.CallRun c.Steady s) : c.Coherent s := by
  have hboth : c.Coherent s ∧ s.Known := by
    refine Runs.RunFrom.invariant (I := fun s => c.Coherent s ∧ s.Known) h ?_ ?_
    · intro s hempty
      refine ⟨⟨?_, ?_, ?_⟩, ?_⟩ <;> simp [hempty, Memory.Known]
    · rintro s a t ⟨hcoherent, hknown⟩ hok ⟨hgiven, rfl⟩
      exact ⟨hcoherent.call hknown hok, known_call hknown hgiven⟩
  exact hboth.1

end Runs

end Crud

section Topics

open EntityIds

def topicColumns : CloudColumns := ⟨["arn", "region"], by decide, by decide⟩

def topics : Crud ColumnValue := ⟨"Topic", .cloud, (ofColumns topicColumns "id").entityId⟩

def newTopic : Entity ColumnValue :=
  ⟨[("id", .num 7), ("name", .str "alerts"), ("region", .str "us-east-1")], by decide⟩

def noMemory : Memory ColumnValue := ⟨⟨fun _ => ∅, 0⟩, ∅⟩

def Heap.write (h : Heap V) (es : List Ref) (col : String) (v : V) : Heap V :=
  ⟨fun e => if e ∈ es then (h.objects e).set col v else h.objects e, h.next⟩

theorem Heap.next_write (h : Heap V) (es : List Ref) (col : String) (v : V) :
    h.next ≤ (h.write es col v).next :=
  le_rfl

-- e[col] = v for every entity given, all of them returned
def writing (col : String) (v : V) : CreateFn V := fun es h =>
  { heap := h.write es col v
    grows := h.next_write es col v
    out := .ok (some (.many (es.filter (· < h.next))))
    known := fun o ho e he => by
      obtain rfl := Option.some.inj (Except.ok.inj ho)
      simpa [Entities.es, Heap.write] using (List.mem_filter.mp he).2
    es := es }

def topicMade : Memory ColumnValue :=
  topics.call (topics.call noMemory (.build newTopic))
    (.create (writing "arn" (.str "arn:aws:sns:us-east-1:123456789012:alerts")) (.one 0))

theorem topic_memoised_twice :
    topics.CallRun (fun _ _ => True) topicMade ∧
      topicMade.memo.entries =
        [("7", 0), ("arn:aws:sns:us-east-1:123456789012:alerts|us-east-1", 0)] ∧
      ¬ topics.Coherent topicMade := by
  have hentries : topicMade.memo.entries =
      [("7", 0), ("arn:aws:sns:us-east-1:123456789012:alerts|us-east-1", 0)] := by decide
  refine ⟨?_, hentries, fun h => ?_⟩
  · have hstart : topics.CallRun (fun _ _ => True) noMemory := .start rfl
    have hbuilt := hstart.next (a := Call.build newTopic) trivial ⟨trivial, rfl⟩
    have hgiven : ∀ r ∈ [0], r < 1 := by decide
    exact hbuilt.next (a := Call.create _ (.one 0)) trivial ⟨hgiven, rfl⟩
  · have hkey := h.keyed "7" 0 (by rw [hentries]; exact List.mem_cons_self)
    exact absurd hkey (by decide)

def listedTopic (name : String) : Entity ColumnValue :=
  ⟨[("arn", .str name), ("region", .str "us-east-1"), ("displayName", .null)], by simp [OrderedMap.keys]⟩

-- a new object is found, and returned alone
def finding (e : Entity V) : ReadFn V := fun _ h =>
  { heap := h.alloc e
    grows := Nat.le_succ _
    out := .ok (some (.one h.next))
    known := fun o ho r hr => by
      obtain rfl := Option.some.inj (Except.ok.inj ho)
      obtain rfl := List.mem_singleton.mp hr
      exact Nat.lt_succ_self _ }

def displaying : Call ColumnValue := .create (writing "displayName" (.str "Alerts")) (.one 0)

def topicRenamed : Memory ColumnValue :=
  topics.call (topics.call noMemory (.build (listedTopic "arn:1"))) displaying

def topicsRead : Memory ColumnValue :=
  topics.call topicRenamed (.read (finding (listedTopic "arn:2")) (some "arn:2|us-east-1"))

theorem topics_stay_coherent :
    topics.Coherent topicsRead ∧
      topicsRead.memo.entries = [("arn:1|us-east-1", 0), ("arn:2|us-east-1", 1)] := by
  have hstart : topics.CallRun topics.Steady noMemory := .start rfl
  have hbuilt := hstart.next (a := Call.build (listedTopic "arn:1")) trivial ⟨trivial, rfl⟩
  have hgiven : ∀ r ∈ [0], r < 1 := by decide
  have hmade : topics.CallRun topics.Steady topicRenamed := by
    refine hbuilt.next (a := displaying) ⟨?_, ?_, ?_⟩ ⟨hgiven, rfl⟩
    all_goals decide
  have hread : topics.CallRun topics.Steady topicsRead := by
    refine hmade.next (a := Call.read (finding (listedTopic "arn:2")) (some "arn:2|us-east-1"))
      ?_ ⟨trivial, rfl⟩
    refine fun _ => ⟨?_, fun out hout _ => ?_⟩
    · decide
    · obtain rfl := Option.some.inj (Except.ok.inj hout)
      refine ⟨?_, .inr ⟨?_, 2, ?_, ?_⟩⟩
      all_goals decide
  exact ⟨Crud.coherent_of_run hread, by decide⟩

end Topics

end Iasql.Shared
