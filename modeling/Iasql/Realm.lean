import Iasql.Resolution
import Iasql.StoreFrame

namespace Iasql

open Program Prog OrderedMap

section Cells

variable {E : Type}

def withId (idGen : E → String) (es : List E) (i : String) : List E :=
  es.filter fun e => decide (idGen e = i)

-- what is known under one identifier: noted in the memo of the truth, and held by either side
@[ext] structure Cell (E : Type) where
  noted : List E
  truth : List E
  target : List E

inductive Operation (E : Type) where
  | create (e : E)
  | update (ec : E × E)
  | delete (e : E)

def Operation.Deletes : Operation E → Prop
  | .delete _ => True
  | _ => False

variable {W : Type} (d : Direction W E) (m : Mapper W E)

def Direction.same (t r : E) : Bool :=
  match d.truth with
  | .db => m.equals t r
  | .cloud => m.equals r t

def Operation.id : Operation E → String
  | .create e | .delete e => m.entityId e
  | .update ec => m.entityId (d.truth.pick ec)

namespace Cell

def Agrees (c : Cell E) : Prop :=
  (c.noted = [] ∧ c.truth = [] ∧ c.target = []) ∨
    ∃ t r, c.truth = [t] ∧ c.target = [r] ∧ d.same m t r = true ∧ c.noted ≠ [] ∧
      ∀ v ∈ c.noted, d.same m v r = true

def Calls (c : Cell E) : Operation E → Prop
  | .create e => c.noted = [e] ∧ c.truth = [e] ∧ c.target = []
  | .update ec =>
    (c.noted = [d.truth.pick ec] ∨ c.noted = [d.prepare ec (d.truth.pick ec)]) ∧
      c.truth = [d.truth.pick ec] ∧ c.target = [d.target.pick ec] ∧
      d.same m (d.truth.pick ec) (d.target.pick ec) = false
  | .delete e => c.noted = [] ∧ c.truth = [] ∧ c.target = [e]

variable {d m} {c : Cell E} {op op' : Operation E}

theorem calls_unique (hd : d.truth ≠ d.target) (h : c.Calls d m op) (h' : c.Calls d m op') :
    op = op' := by
  cases op with
  | create e =>
    obtain ⟨-, ht, hr⟩ := h
    cases op' with
    | create e' => cases ht.symm.trans h'.2.1; rfl
    | update ec => cases hr.symm.trans h'.2.2.1
    | delete e' => cases ht.symm.trans h'.2.1
  | update ec =>
    obtain ⟨-, ht, hr, -⟩ := h
    cases op' with
    | create e' => cases hr.symm.trans h'.2.2
    | update ec' =>
      have htruth := List.singleton_inj.mp (ht.symm.trans h'.2.1)
      have htarget := List.singleton_inj.mp (hr.symm.trans h'.2.2.1)
      refine congrArg _ (Prod.ext ?_ ?_) <;> revert hd htruth htarget <;>
        cases d.truth <;> cases d.target <;> simp_all [Dest.pick]
    | delete e' => cases ht.symm.trans h'.2.1
  | delete e =>
    obtain ⟨-, ht, hr⟩ := h
    cases op' with
    | create e' => cases ht.symm.trans h'.2.1
    | update ec => cases ht.symm.trans h'.2.1
    | delete e' => cases hr.symm.trans h'.2.2; rfl

theorem not_calls_of_same {t r : E} (ht : c.truth = [t]) (hr : c.target = [r])
    (hsame : d.same m t r = true) : ¬ c.Calls d m op := by
  intro hop
  cases op with
  | create e => cases hr.symm.trans hop.2.2
  | update ec =>
    obtain ⟨-, ht', hr', hdiff⟩ := hop
    cases ht.symm.trans ht'
    cases hr.symm.trans hr'
    rw [hsame] at hdiff
    cases hdiff
  | delete e => cases ht.symm.trans hop.2.1

theorem truth_or_target (h : c.Calls d m op) : c.truth ≠ [] ∨ c.target ≠ [] := by
  cases op with
  | create e => exact .inl (by rw [h.2.1]; simp)
  | update ec => exact .inl (by rw [h.2.1]; simp)
  | delete e => exact .inr (by rw [h.2.2]; simp)

theorem truth_of_writes (h : c.Calls d m op) (hw : ¬ op.Deletes) : c.truth ≠ [] := by
  cases op with
  | create e => rw [h.2.1]; simp
  | update ec => rw [h.2.1]; simp
  | delete e => exact absurd trivial hw

theorem target_of_writes (h : c.Calls d m op) (hw : ¬ op.Deletes) :
    c.target = [] ∨ ∃ r, c.target = [r] := by
  cases op with
  | create e => exact .inl h.2.2
  | update ec => exact .inr ⟨_, h.2.2.1⟩
  | delete e => exact absurd trivial hw

theorem not_calls_of_agrees (h : c.Agrees d m) : ¬ c.Calls d m op := by
  rcases h with ⟨-, ht, hr⟩ | ⟨t, r, ht, hr, hsame, -⟩
  · exact fun hop => (truth_or_target hop).elim (fun h => h ht) fun h => h hr
  · exact not_calls_of_same ht hr hsame

end Cell

end Cells

section Views

variable {W E : Type}

-- what the two sides hold, and what is kept true of them
structure Realm (W E : Type) where
  rows : Dest → String → W → List E
  Sound : Store W → Prop
  rank : String → Operation E → Nat

structure Realm.View (W E : Type) where
  store : Store W
  notes : Memo E
  started : Option Nat

def Context.view (d : Direction W E) (c : Context W E) : Realm.View W E where
  store := c.store
  notes := c.memo d.truth
  started := startedAt c

variable (A : Realm W E) (d : Direction W E)

def Realm.held (dest : Dest) (m : Mapper W E) (v : Realm.View W E) : List E :=
  A.rows dest m.entityName v.store.world

def Realm.cell (m : Mapper W E) (v : Realm.View W E) (i : String) : Cell E where
  noted := withId m.entityId ((v.notes m.entityName).map Prod.snd) i
  truth := withId m.entityId (A.held d.truth m v) i
  target := withId m.entityId (A.held d.target m v) i

-- one row is written: it may get a new identifier, and the target may keep what it had under
-- the old one; what the mapper memoises by itself is the new row
structure Realm.Written [JsRecord E] (m : Mapper W E) (i : String) (out : List E) (t r : E)
    (v v' : Realm.View W E) : Prop where
  same : d.same m t r = true
  fresh : m.entityId t = i ∨
    (A.cell d m v (m.entityId t)).truth = [] ∧ (A.cell d m v (m.entityId t)).target = []
  truth : (A.cell d m v' (m.entityId t)).truth = [t]
  target : (A.cell d m v' (m.entityId t)).target = [r]
  noted : ∃ a, (A.cell d m v' i).noted = [a] ∧ m.entityId (assignAll out a) = m.entityId t ∧
    d.same m (assignAll out a) r = true
  memoised : m.entityId t ≠ i → ∀ a ∈ (A.cell d m v' (m.entityId t)).noted, d.same m a r = true
  left : m.entityId t ≠ i → (A.cell d m v' i).truth = [] ∧
    ((A.cell d m v' i).target = [] ∨ (A.cell d m v' i).target = (A.cell d m v i).target)
  others : ∀ k, k ≠ i → k ≠ m.entityId t → A.cell d m v' k = A.cell d m v k

structure Realm.Erased (m : Mapper W E) (i : String) (v v' : Realm.View W E) : Prop where
  erased : A.cell d m v' i = { A.cell d m v i with target := [] }
  others : ∀ k, k ≠ i → A.cell d m v' k = A.cell d m v k

structure Realm.Steady (m : Mapper W E) (v v' : Realm.View W E) : Prop where
  sound : A.Sound v'.store
  started : v'.started = v.started
  apart : ∀ name, name ≠ m.entityName → v'.notes name = v.notes name ∧
    ∀ dest, A.rows dest name v'.store.world = A.rows dest name v.store.world

variable [JsRecord E]

def Operation.run (m : Mapper W E) : Operation E → Prog (Context W E) Thrown (List E)
  | .create e => (m.crud d.target).createFn e
  | .update ec => (m.crud d.target).updateFn (d.updated ec)
  | .delete e => do
    (m.crud d.target).deleteFn e
    return []

def Operation.Effect (m : Mapper W E) (op : Operation E) (out : List E)
    (v v' : Realm.View W E) : Prop :=
  match op with
  | .create _ | .update _ => ∃ t r, A.Written d m (op.id d m) out t r v v'
  | .delete _ => A.Erased d m (op.id d m) v v'

-- each identifier is the same on both sides, or calls for an operation
def Realm.InStep (ms : List (Mapper W E)) (v : Realm.View W E) : Prop :=
  ∀ m ∈ ms, ∀ i, (A.cell d m v i).Agrees d m ∨
    ∃ op : Operation E, op.id d m = i ∧ (A.cell d m v i).Calls d m op

def Realm.Performs (ms : List (Mapper W E)) (m : Mapper W E) (op : Operation E)
    (c : Context W E) : Prop :=
  (∃ out c', op.run d m c = (.returned out, c') ∧ A.Steady m (c.view d) (c'.view d) ∧
    op.Effect A d m out (c.view d) (c'.view d)) ∨
  -- it is refused while an operation of a smaller rank is called for
  ∃ e c', op.run d m c = (.thrown e, c') ∧ A.Steady m (c.view d) (c'.view d) ∧
    (∀ k, A.cell d m (c'.view d) k = A.cell d m (c.view d) k) ∧
    ∃ m' ∈ ms, ∃ op' : Operation E, (A.cell d m' (c.view d) (op'.id d m')).Calls d m' op' ∧
      A.rank m'.entityName op' < A.rank m.entityName op

-- both sides can be read, row by row
structure Realm.Legible (ms : List (Mapper W E)) : Prop where
  sides : d.truth ≠ d.target
  names : (ms.map Mapper.entityName).Nodup
  distinct : ∀ m ∈ ms, ∀ dest st, A.Sound st →
    ((A.rows dest m.entityName st.world).map m.entityId).Nodup
  read : ∀ m ∈ ms, ∀ dest (c : Context W E), A.Sound c.store →
    (m.crud dest).readFn c = (.returned (A.rows dest m.entityName c.store.world), c)

structure Realm.Lawful (ms : List (Mapper W E)) : Prop extends Realm.Legible A d ms where
  perform : ∀ m ∈ ms, ∀ op (c : Context W E), A.Sound c.store → A.InStep d ms (c.view d) →
    (A.cell d m (c.view d) (op.id d m)).Calls d m op → A.Performs d ms m op c
  prepared : ∀ m ∈ ms, ∀ ec,
    m.entityId (d.prepare ec (d.truth.pick ec)) = m.entityId (d.truth.pick ec)
  idempotent : ∀ ec e, d.prepare ec (d.prepare ec e) = d.prepare ec e
  deletesLast : ∀ name name' (op op' : Operation E), op.Deletes → ¬ op'.Deletes →
    A.rank name' op' < A.rank name op

-- what the engine asks beside the mappers succeeds, and nobody has changed anything since the
-- commit started
structure Realm.Calm (env : Env W E) (started : Option Nat) : Prop where
  createConn : ∀ st, A.Sound st → ∃ orm, env.createConn st = (.returned orm, st)
  dropConn : ∀ orm st, A.Sound st → env.dropConn orm st = (.returned (), st)
  roundTrip : ∀ st, A.Sound st → env.roundTrip st = (.returned (), st)
  upgrading : ∀ st, A.Sound st → env.upgrading st = (.returned false, st)
  versionString : ∀ st, A.Sound st → env.versionString st = (.returned env.cfg.version, st)
  unchanged : ∀ st, A.Sound st → getChangesAfterCommit env.cfg env.planner st.auditLog started = []

end Views

section Rewriting

variable {E : Type} {idGen : E → String} {f : E → E} {i : String} {a : E}

theorem split_of_withId {es : List (String × E)} (h : withId idGen (es.map Prod.snd) i = [a]) :
    ∃ k pre post, es = pre ++ (k, a) :: post ∧ idGen a = i ∧
      (∀ p ∈ pre, idGen p.2 ≠ i) ∧ ∀ p ∈ post, idGen p.2 ≠ i := by
  induction es with
  | nil => cases h
  | cons p es ih =>
    by_cases hp : idGen p.2 = i
    · simp only [withId, List.map_cons, List.filter_cons, hp, decide_true, if_true] at h
      obtain ⟨rfl, hnil⟩ := List.cons.inj h
      refine ⟨p.1, [], es, rfl, hp, by simp, fun q hq heq => ?_⟩
      exact List.filter_eq_nil_iff.mp hnil q.2 (List.mem_map_of_mem hq) (by simpa using heq)
    · simp only [withId, List.map_cons, List.filter_cons, hp, decide_false] at h
      obtain ⟨k, pre, post, rfl, ha, hpre, hpost⟩ := ih h
      refine ⟨k, p :: pre, post, rfl, ha, fun q hq => ?_, hpost⟩
      rcases List.mem_cons.mp hq with rfl | hq
      · exact hp
      · exact hpre q hq

theorem replaceLast_split {α : Type} {p : α → Bool} {g : α → α} {pre post : List α} {x : α}
    (hx : p x = true) (hpost : ∀ y ∈ post, p y = false) :
    replaceLast p g (pre ++ x :: post) = pre ++ g x :: post := by
  induction pre with
  | nil =>
    have hany : post.any p = false := by
      rw [List.any_eq_false]
      exact fun y hy => by simp [hpost y hy]
    simp [replaceLast, hany, hx]
  | cons y pre ih => simp [replaceLast, hx, ih]

theorem withId_append (xs ys : List E) (k : String) :
    withId idGen (xs ++ ys) k = withId idGen xs k ++ withId idGen ys k := List.filter_append ..

theorem withId_eq_nil {xs : List E} {k : String} :
    withId idGen xs k = [] ↔ ∀ x ∈ xs, idGen x ≠ k := by
  simp [withId]

theorem mem_withId {xs : List E} {k : String} {x : E} :
    x ∈ withId idGen xs k ↔ x ∈ xs ∧ idGen x = k := by simp [withId]

theorem withId_cons (x : E) (xs : List E) (k : String) :
    withId idGen (x :: xs) k =
      if idGen x = k then x :: withId idGen xs k else withId idGen xs k := by
  simp only [withId, List.filter_cons, decide_eq_true_eq]

-- the only entry with an identifier is overwritten where it stands
theorem withId_replaceLast {es : List (String × E)} {e : E}
    (h : withId idGen (es.map Prod.snd) (idGen e) = [a]) :
    ∃ xs ys : String → List E,
      (∀ k, k ≠ idGen e → withId idGen (es.map Prod.snd) k = xs k ++ ys k) ∧
      xs (idGen e) = [] ∧ ys (idGen e) = [] ∧
      ∀ k, withId idGen ((replaceLast (fun p => idGen p.2 == idGen e)
          (fun p => (p.1, f p.2)) es).map Prod.snd) k =
        xs k ++ (if idGen (f a) = k then [f a] else []) ++ ys k := by
  obtain ⟨key, pre, post, rfl, ha, hpre, hpost⟩ := split_of_withId h
  refine ⟨withId idGen (pre.map Prod.snd), withId idGen (post.map Prod.snd), fun k hk => ?_, ?_, ?_,
    fun k => ?_⟩
  · have hne : ¬ idGen a = k := by rw [ha]; exact hk.symm
    rw [List.map_append, withId_append, List.map_cons, withId_cons, if_neg hne]
  · rw [withId_eq_nil]
    intro x hx
    obtain ⟨p, hp, rfl⟩ := List.mem_map.mp hx
    exact hpre p hp
  · rw [withId_eq_nil]
    intro x hx
    obtain ⟨p, hp, rfl⟩ := List.mem_map.mp hx
    exact hpost p hp
  · rw [replaceLast_split (by simpa using ha) fun p hp => by simpa using hpost p hp]
    rw [List.map_append, withId_append, List.map_cons, withId_cons, List.append_assoc]
    split <;> rfl

end Rewriting

section Rewrites

variable {W E : Type} {A : Realm W E} {d : Direction W E} {m m' : Mapper W E} {c : Context W E}
  {e : E} {f : E → E}

theorem putEntries_memo_other {a b : Dest} {name : String} {entries : List (String × E)}
    (h : a ≠ b) : (c.putEntries a name entries).memo b = c.memo b := by
  cases a <;> cases b <;> first | exact absurd rfl h | rfl

theorem putEntries_startedAt (dest : Dest) (name : String) (entries : List (String × E)) :
    startedAt (c.putEntries dest name entries) = startedAt c := by cases dest <;> rfl

-- what is memoised for the target is not part of the view
theorem putEntries_view (hd : d.truth ≠ d.target) (name : String) (entries : List (String × E)) :
    (c.putEntries d.target name entries).view d = c.view d := by
  unfold Context.view
  rw [putEntries_store, putEntries_memo_other hd.symm, putEntries_startedAt]

theorem unmemo_view (hd : d.truth ≠ d.target) (e : E) :
    (m.unmemo d.target c e).view d = c.view d := putEntries_view hd _ _

theorem memo_view [JsRecord E] (hd : d.truth ≠ d.target) (es : List E) :
    (m.memo d.target c es).view d = c.view d := by
  induction es generalizing c with
  | nil => rfl
  | cons e es ih =>
    refine (ih (c := m.memoOne d.target c e)).trans ?_
    unfold Mapper.memoOne
    simp only
    split <;> exact putEntries_view hd _ _

def Realm.View.rewrite (m : Mapper W E) (e : E) (f : E → E) (v : Realm.View W E) :
    Realm.View W E where
  store := v.store
  notes := Function.update v.notes m.entityName
    (replaceLast (fun p => m.entityId p.2 == m.entityId e) (fun p => (p.1, f p.2))
      (v.notes m.entityName))
  started := v.started

theorem overwrite_view : (overwrite m d.truth e f c).view d = (c.view d).rewrite m e f := by
  unfold Context.view Realm.View.rewrite overwrite
  rw [putEntries_store, putEntries_startedAt]
  cases d.truth <;> rfl

variable {v : Realm.View W E} {a : E}

theorem cell_of_apart {v' : Realm.View W E} {i : String} (h : m'.entityName ≠ m.entityName)
    (hs : A.Steady m v v') : A.cell d m' v' i = A.cell d m' v i := by
  obtain ⟨hnotes, hrows⟩ := hs.apart m'.entityName h
  simp only [Realm.cell, Realm.held, hnotes, hrows]

theorem cell_rewrite_apart {i : String} (h : m'.entityName ≠ m.entityName) :
    A.cell d m' (v.rewrite m e f) i = A.cell d m' v i := by
  simp only [Realm.cell, Realm.held, Realm.View.rewrite, Function.update_of_ne h]

theorem cell_rewrite (h : (A.cell d m v (m.entityId e)).noted = [a]) (i : String) :
    (A.cell d m (v.rewrite m e f) i).truth = (A.cell d m v i).truth ∧
      (A.cell d m (v.rewrite m e f) i).target = (A.cell d m v i).target ∧
      (i ≠ m.entityId e → i ≠ m.entityId (f a) → A.cell d m (v.rewrite m e f) i = A.cell d m v i) ∧
      (i = m.entityId e → i ≠ m.entityId (f a) → (A.cell d m (v.rewrite m e f) i).noted = []) ∧
      (i = m.entityId e → i = m.entityId (f a) → (A.cell d m (v.rewrite m e f) i).noted = [f a]) ∧
      (i ≠ m.entityId e → i = m.entityId (f a) → f a ∈ (A.cell d m (v.rewrite m e f) i).noted ∧
        ∀ x ∈ (A.cell d m (v.rewrite m e f) i).noted, x = f a ∨ x ∈ (A.cell d m v i).noted) := by
  obtain ⟨xs, ys, hsplit, hxs, hys, hnew⟩ := withId_replaceLast (f := f) h
  have hnoted : (A.cell d m (v.rewrite m e f) i).noted =
      xs i ++ (if m.entityId (f a) = i then [f a] else []) ++ ys i := by
    rw [← hnew i]
    simp only [Realm.cell, Realm.View.rewrite, Function.update_self]
  have hold : i ≠ m.entityId e → (A.cell d m v i).noted = xs i ++ ys i := hsplit i
  refine ⟨rfl, rfl, fun hi hf => ?_, fun hi hf => ?_, fun hi hf => ?_, fun hi hf => ?_⟩
  · refine Cell.ext ?_ rfl rfl
    rw [hnoted, hold hi, if_neg (Ne.symm hf), List.append_nil]
  · rw [hnoted, if_neg (Ne.symm hf), hi, hxs, hys]
    rfl
  · rw [hnoted, if_pos hf.symm, hi, hxs, hys]
    rfl
  · rw [hnoted, if_pos hf.symm, hold hi]
    refine ⟨by simp, fun x hx => ?_⟩
    simp only [List.mem_append, List.mem_singleton] at hx ⊢
    tauto

end Rewrites

end Iasql
