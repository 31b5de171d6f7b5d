import Iasql.Progress
import Iasql.Realm
import Mathlib.Data.Set.Function

namespace Iasql

open Program Prog OrderedMap

section Tasks

variable {W E : Type} [JsRecord E] (A : Realm W E) (d : Direction W E)

structure Task (W E : Type) where
  mapper : Mapper W E
  operation : Operation E

namespace Task

variable (x : Task W E)

def id : String := x.operation.id d x.mapper

def Called (v : Realm.View W E) : Prop :=
  (A.cell d x.mapper v (x.id d)).Calls d x.mapper x.operation

def rank : Nat := A.rank x.mapper.entityName x.operation

def perform : Task W E → Prog (Engine W E) Thrown Unit
  | ⟨m, .create e⟩ => do
    emit (.create d.target m e)
    let out ← onCtx (m.create d.target e)
    modifyCtx (overwrite m d.truth e (assignAll out))
  | ⟨m, .update ec⟩ => do
    modifyCtx (overwrite m d.truth (d.truth.pick ec) (d.prepare ec))
    emit (.update d.target m (d.updated ec))
    let out ← onCtx (m.update d.target (d.updated ec))
    modifyCtx (overwrite m d.truth (d.truth.pick ec) (assignAll out))
  | ⟨m, .delete e⟩ => do
    emit (.delete d.target m e)
    onCtx (m.delete d.target e)

-- the view an operation starts from, and what the engine makes of the view it leaves
def before (v : Realm.View W E) : Realm.View W E :=
  match x.operation with
  | .update ec => v.rewrite x.mapper (d.truth.pick ec) (d.prepare ec)
  | _ => v

def after (out : List E) (v : Realm.View W E) : Realm.View W E :=
  match x.operation with
  | .create e => v.rewrite x.mapper e (assignAll out)
  | .update ec => v.rewrite x.mapper (d.truth.pick ec) (assignAll out)
  | .delete _ => v

end Task

def tasksOf (records : List (DiffRecord W E)) : List (Task W E) :=
  (records.flatMap fun r =>
    (r.diff.only d.truth).map (fun e => ⟨r.mapper, .create e⟩) ++
      r.diff.entitiesChanged.map fun ec => ⟨r.mapper, .update ec⟩) ++
  records.reverse.flatMap fun r => (r.diff.only d.target).map fun e => ⟨r.mapper, .delete e⟩

theorem generators_eq (records : List (DiffRecord W E)) :
    generators d records = (tasksOf d records).map (Task.perform d) := by
  simp only [generators, tasksOf, creations, updates, List.map_append, List.map_flatMap,
    List.map_map]
  rfl

end Tasks

section Performing

variable {W E : Type} [JsRecord E] {A : Realm W E} {d : Direction W E} {ms : List (Mapper W E)}
  {x : Task W E} {s : Engine W E} {v : Realm.View W E} {i : String}

section Primitives

variable {α β : Type} {p : Prog (Context W E) Thrown α} {k : α → Prog (Engine W E) Thrown β}
  {c : Context W E} {a : α} {err : Thrown}

omit [JsRecord E] in
theorem onCtx_returned (s : Engine W E) (h : p s.ctx = (.returned a, c)) :
    onCtx p s = (.returned a, { s with ctx := c }) := by
  unfold onCtx Prog.within
  rw [h]

omit [JsRecord E] in
theorem onCtx_thrown (s : Engine W E) (h : p s.ctx = (.thrown err, c)) :
    onCtx p s = (.thrown err, { s with ctx := c }) := by
  unfold onCtx Prog.within
  rw [h]

omit [JsRecord E] in
theorem emit_bind (ev : Event W E) (k : Unit → Prog (Engine W E) Thrown β) :
    (emit ev >>= k) s = k () { s with trace := s.trace ++ [ev] } := rfl

omit [JsRecord E] in
theorem modifyCtx_bind (f : Context W E → Context W E) (k : Unit → Prog (Engine W E) Thrown β) :
    (modifyCtx f >>= k) s = k () { s with ctx := f s.ctx } := rfl

end Primitives

theorem before_steady (hlaw : A.Lawful d ms) (hx : x.mapper ∈ ms) (hcalled : x.Called A d v) :
    x.Called A d (x.before d v) ∧ (∀ m : Mapper W E, m.entityName ≠ x.mapper.entityName → ∀ i,
        A.cell d m (x.before d v) i = A.cell d m v i) ∧
      (∀ i, i ≠ x.id d → A.cell d x.mapper (x.before d v) i = A.cell d x.mapper v i) ∧
      (A.cell d x.mapper (x.before d v) (x.id d)).truth = (A.cell d x.mapper v (x.id d)).truth ∧
      (A.cell d x.mapper (x.before d v) (x.id d)).target =
        (A.cell d x.mapper v (x.id d)).target := by
  obtain ⟨m, op⟩ := x
  cases op with
  | create e => exact ⟨hcalled, fun _ _ _ => rfl, fun _ _ => rfl, rfl, rfl⟩
  | delete e => exact ⟨hcalled, fun _ _ _ => rfl, fun _ _ => rfl, rfl, rfl⟩
  | update ec =>
    obtain ⟨hnoted, htruth, htarget, hdiff⟩ := hcalled
    -- preparing an entity twice changes nothing, and leaves its identifier
    obtain ⟨a, ha, hprep⟩ : ∃ a, (A.cell d m v (m.entityId (d.truth.pick ec))).noted = [a] ∧
        d.prepare ec a = d.prepare ec (d.truth.pick ec) := by
      rcases hnoted with h | h
      · exact ⟨_, h, rfl⟩
      · exact ⟨_, h, hlaw.idempotent ec _⟩
    have hid : m.entityId (d.prepare ec a) = m.entityId (d.truth.pick ec) := by
      rw [hprep]
      exact hlaw.prepared m hx ec
    refine ⟨⟨.inr ?_, htruth, htarget, hdiff⟩, fun m' hm' i => cell_rewrite_apart hm',
      fun i hi => ?_, rfl, rfl⟩
    · obtain ⟨-, -, -, -, hnew, -⟩ :=
        cell_rewrite (f := d.prepare ec) ha (m.entityId (d.truth.pick ec))
      rw [← hprep]
      exact hnew rfl hid.symm
    · obtain ⟨-, -, hsame, -⟩ := cell_rewrite (f := d.prepare ec) ha i
      exact hsame hi (by rw [hid]; exact hi)

-- whatever else is called for is called for before it and after its entity was prepared
theorem called_before (hlaw : A.Lawful d ms) (hx : x.mapper ∈ ms) (hcalled : x.Called A d v)
    {m : Mapper W E} (hm : m ∈ ms) {op : Operation E} :
    (A.cell d m (x.before d v) i).Calls d m op → i = op.id d m →
      m = x.mapper ∧ op = x.operation ∨ (A.cell d m v i).Calls d m op := by
  intro hop hi
  obtain ⟨hbefore, hapart, hothers, -⟩ := before_steady hlaw hx hcalled
  by_cases hname : m.entityName = x.mapper.entityName
  · obtain rfl : m = x.mapper := List.inj_on_of_nodup_map hlaw.names hm hx hname
    by_cases hid : i = x.id d
    · subst hid
      exact .inl ⟨rfl, Cell.calls_unique hlaw.sides hop hbefore⟩
    · exact .inr (hothers i hid ▸ hop)
  · exact .inr (hapart m hname i ▸ hop)

theorem inStep_before (hlaw : A.Lawful d ms) (hx : x.mapper ∈ ms) (hcalled : x.Called A d v)
    (h : A.InStep d ms v) : A.InStep d ms (x.before d v) := by
  intro m hm i
  obtain ⟨hbefore, hapart, hothers, -⟩ := before_steady hlaw hx hcalled
  by_cases hname : m.entityName = x.mapper.entityName
  · obtain rfl : m = x.mapper := List.inj_on_of_nodup_map hlaw.names hm hx hname
    by_cases hid : i = x.id d
    · subst hid
      exact .inr ⟨x.operation, rfl, hbefore⟩
    · rw [hothers i hid]
      exact h _ hm i
  · rw [hapart m hname i]
    exact h m hm i

section Mappers

variable {m : Mapper W E} {dest : Dest} {c c' : Context W E} {e : E} {out : List E} {err : Thrown}

omit [JsRecord E] in
theorem rethrow_carries {α : Type} (m : Mapper W E) (dest : Dest) (verb : String) (err : Thrown)
    (c : Context W E) : ∃ err', (m.rethrow dest verb err : Prog _ _ α) c = (.thrown err', c) ∧
      err'.carriesStack = true := by
  cases err <;> exact ⟨_, rfl, rfl⟩

theorem create_returned
    (h : (m.crud dest).createFn e (m.memo dest c [e]) = (.returned out, c')) :
    m.create dest e c = (.returned out, m.memo dest c' out) := by
  unfold Mapper.create
  rw [writes_bind_apply, bind_of_returned (attempt_ok.mpr h)]
  rfl

theorem create_thrown (h : (m.crud dest).createFn e (m.memo dest c [e]) = (.thrown err, c')) :
    ∃ err', m.create dest e c = (.thrown err', m.unmemo dest c' e) ∧ err'.carriesStack = true := by
  obtain ⟨err', hthrow, hstack⟩ :=
    rethrow_carries (α := List E) m dest "create" err (m.unmemo dest c' e)
  refine ⟨err', ?_, hstack⟩
  unfold Mapper.create
  rw [writes_bind_apply, bind_of_returned (attempt_error.mpr h)]
  exact hthrow

theorem update_returned (h : (m.crud dest).updateFn e c = (.returned out, c')) :
    m.update dest e c = (.returned out, m.memo dest c' out) := by
  unfold Mapper.update
  rw [bind_of_returned (attempt_ok.mpr h)]
  rfl

theorem update_thrown (h : (m.crud dest).updateFn e c = (.thrown err, c')) :
    ∃ err', m.update dest e c = (.thrown err', c') ∧ err'.carriesStack = true := by
  obtain ⟨err', hthrow, hstack⟩ := rethrow_carries (α := List E) m dest "update" err c'
  refine ⟨err', ?_, hstack⟩
  unfold Mapper.update
  rw [bind_of_returned (attempt_error.mpr h)]
  exact hthrow

omit [JsRecord E] in
theorem delete_returned (h : (m.crud dest).deleteFn e c = (.returned (), c')) :
    m.delete dest e c = (.returned (), m.unmemo dest c' e) := by
  unfold Mapper.delete
  rw [bind_of_returned (attempt_ok.mpr h)]
  rfl

omit [JsRecord E] in
theorem delete_thrown (h : (m.crud dest).deleteFn e c = (.thrown err, c')) :
    ∃ err', m.delete dest e c = (.thrown err', c') ∧ err'.carriesStack = true := by
  obtain ⟨err', hthrow, hstack⟩ := rethrow_carries (α := Unit) m dest "delete" err c'
  refine ⟨err', ?_, hstack⟩
  unfold Mapper.delete
  rw [bind_of_returned (attempt_error.mpr h)]
  exact hthrow

end Mappers

-- an operation takes place as its mapper has it, or is put off
theorem perform_cases (hlaw : A.Lawful d ms) (hx : x.mapper ∈ ms) (hsound : A.Sound s.ctx.store)
    (hstep : A.InStep d ms (s.ctx.view d)) (hcalled : x.Called A d (s.ctx.view d)) :
    (∃ out v' t, x.perform d s = (.returned (), t) ∧ t.ctx.view d = x.after d out v' ∧
      A.Steady x.mapper (x.before d (s.ctx.view d)) v' ∧
      x.operation.Effect A d x.mapper out (x.before d (s.ctx.view d)) v') ∨
    ∃ e t, x.perform d s = (.thrown e, t) ∧ e.carriesStack = true ∧
      A.Steady x.mapper (x.before d (s.ctx.view d)) (t.ctx.view d) ∧
      (∀ k, A.cell d x.mapper (t.ctx.view d) k = A.cell d x.mapper (x.before d (s.ctx.view d)) k) ∧
      ∃ m ∈ ms, ∃ op : Operation E,
        (A.cell d m (x.before d (s.ctx.view d)) (op.id d m)).Calls d m op ∧
        A.rank m.entityName op < x.rank A := by
  have hbefore := (before_steady hlaw hx hcalled).1
  have hin := inStep_before hlaw hx hcalled hstep
  have hd := hlaw.sides
  obtain ⟨m, op⟩ := x
  cases op with
  | create e =>
    let u : Engine W E := { s with trace := s.trace ++ [.create d.target m e] }
    have hview : (m.memo d.target s.ctx [e]).view d = s.ctx.view d := memo_view hd [e]
    have hs : A.Sound (m.memo d.target s.ctx [e]).store := by rwa [memo_store]
    rcases hlaw.perform m hx (.create e) _ hs (hview ▸ hin) (hview ▸ hbefore) with
      ⟨out, c', hrun, hsteady, heffect⟩ | ⟨err, c', hrun, hsteady, hcells, hwhy⟩
    · have hdone : Task.perform d ⟨m, .create e⟩ s = (.returned (), { u with
          ctx := overwrite m d.truth e (assignAll out) (m.memo d.target c' out) }) := by
        rw [Task.perform, emit_bind, bind_of_returned (onCtx_returned u (create_returned hrun))]
        rfl
      refine .inl ⟨out, c'.view d, _, hdone, ?_, hview ▸ hsteady, hview ▸ heffect⟩
      exact overwrite_view.trans (congrArg _ (memo_view hd out))
    · obtain ⟨err', hcreate, hstack⟩ := create_thrown hrun
      have hput : Task.perform d ⟨m, .create e⟩ s =
          (.thrown err', { u with ctx := m.unmemo d.target c' e }) := by
        rw [Task.perform, emit_bind, bind_of_thrown (onCtx_thrown u hcreate)]
      have hafter : (m.unmemo d.target c' e).view d = c'.view d := unmemo_view hd e
      rw [hview] at hsteady hcells hwhy
      exact .inr ⟨err', _, hput, hstack, hafter ▸ hsteady, hafter ▸ hcells, hwhy⟩
  | update ec =>
    let c := overwrite m d.truth (d.truth.pick ec) (d.prepare ec) s.ctx
    have hview : c.view d = (s.ctx.view d).rewrite m (d.truth.pick ec) (d.prepare ec) :=
      overwrite_view
    let u : Engine W E :=
      { s with ctx := c, trace := s.trace ++ [.update d.target m (d.updated ec)] }
    have hs : A.Sound c.store := (overwrite_store d.truth _ _ s.ctx).symm ▸ hsound
    rcases hlaw.perform m hx (.update ec) c hs (hview ▸ hin) (hview ▸ hbefore) with
      ⟨out, c', hrun, hsteady, heffect⟩ | ⟨err, c', hrun, hsteady, hcells, hwhy⟩
    · have hdone : Task.perform d ⟨m, .update ec⟩ s = (.returned (), { u with
          ctx := overwrite m d.truth (d.truth.pick ec) (assignAll out)
            (m.memo d.target c' out) }) := by
        rw [Task.perform, modifyCtx_bind, emit_bind,
          bind_of_returned (onCtx_returned u (update_returned hrun))]
        rfl
      rw [hview] at hsteady heffect
      refine .inl ⟨out, c'.view d, _, hdone, ?_, hsteady, heffect⟩
      exact overwrite_view.trans (congrArg _ (memo_view hd out))
    · obtain ⟨err', hupdate, hstack⟩ := update_thrown hrun
      have hput : Task.perform d ⟨m, .update ec⟩ s = (.thrown err', { u with ctx := c' }) := by
        rw [Task.perform, modifyCtx_bind, emit_bind, bind_of_thrown (onCtx_thrown u hupdate)]
      rw [hview] at hsteady hcells hwhy
      exact .inr ⟨err', _, hput, hstack, hsteady, hcells, hwhy⟩
  | delete e =>
    let u : Engine W E := { s with trace := s.trace ++ [.delete d.target m e] }
    rcases hlaw.perform m hx (.delete e) s.ctx hsound hin hbefore with
      ⟨out, c', hrun, hsteady, heffect⟩ | ⟨err, c', hrun, hsteady, hcells, hwhy⟩
    · obtain ⟨_, u, hdelete, hret⟩ := bind_returned_inv hrun
      cases hret
      have hdone : Task.perform d ⟨m, .delete e⟩ s =
          (.returned (), { u with ctx := m.unmemo d.target c' e }) := by
        rw [Task.perform, emit_bind, onCtx_returned u (delete_returned hdelete)]
      exact .inl ⟨[], c'.view d, _, hdone, unmemo_view hd e, hsteady, heffect⟩
    · have hdelete : (m.crud d.target).deleteFn e s.ctx = (.thrown err, c') := by
        rcases bind_thrown_inv hrun with h | ⟨_, _, _, h⟩
        · exact h
        · cases h
      obtain ⟨err', hthrow, hstack⟩ := delete_thrown hdelete
      have hput : Task.perform d ⟨m, .delete e⟩ s = (.thrown err', { u with ctx := c' }) := by
        rw [Task.perform, emit_bind, onCtx_thrown u hthrow]
      exact .inr ⟨err', _, hput, hstack, hsteady, hcells, hwhy⟩

end Performing

section Following

variable {W E : Type} (A : Realm W E) (d : Direction W E) (ms : List (Mapper W E))

-- what agrees is left alone, no row of the truth is lost, and the tables of others are untouched
structure Realm.Follows (v v' : Realm.View W E) : Prop where
  spared : ∀ m ∈ ms, ∀ i t r, (A.cell d m v i).truth = [t] → (A.cell d m v i).target = [r] →
    d.same m t r = true → (A.cell d m v' i).truth = [t] ∧ (A.cell d m v' i).target = [r]
  lineage : ∀ m ∈ ms, ∃ successor : String → String, Set.BijOn successor
    {i | (A.cell d m v i).truth ≠ []} {i | (A.cell d m v' i).truth ≠ []}
  apart : ∀ name, (∀ m ∈ ms, m.entityName ≠ name) → ∀ dest,
    A.rows dest name v'.store.world = A.rows dest name v.store.world

variable {A d ms} {v v' v'' : Realm.View W E} {m : Mapper W E}

theorem Realm.Follows.refl (v : Realm.View W E) : A.Follows d ms v v where
  spared _ _ _ _ _ ht hr _ := ⟨ht, hr⟩
  lineage _ _ := ⟨id, Set.bijOn_id _⟩
  apart _ _ _ := rfl

theorem Realm.Follows.trans (h : A.Follows d ms v v') (h' : A.Follows d ms v' v'') :
    A.Follows d ms v v'' where
  spared m hm i t r ht hr hs := by
    obtain ⟨ht', hr'⟩ := h.spared m hm i t r ht hr hs
    exact h'.spared m hm i t r ht' hr' hs
  lineage m hm := by
    obtain ⟨f, hf⟩ := h.lineage m hm
    obtain ⟨g, hg⟩ := h'.lineage m hm
    exact ⟨g ∘ f, hg.comp hf⟩
  apart name hname dest := (h'.apart name hname dest).trans (h.apart name hname dest)

-- views that hold the same
theorem follows_of_cells (hcells : ∀ m ∈ ms, ∀ i, (A.cell d m v' i).truth = (A.cell d m v i).truth ∧
      (A.cell d m v' i).target = (A.cell d m v i).target)
    (happart : ∀ name, (∀ m ∈ ms, m.entityName ≠ name) → ∀ dest,
      A.rows dest name v'.store.world = A.rows dest name v.store.world) :
    A.Follows d ms v v' where
  spared m hm i t r ht hr _ := ⟨(hcells m hm i).1.trans ht, (hcells m hm i).2.trans hr⟩
  lineage m hm := ⟨id, by simp only [(hcells m hm _).1]; exact Set.bijOn_id _⟩
  apart := happart

theorem bijOn_renamed {S : Set String} {i j : String} (hi : i ∈ S) (hj : j = i ∨ j ∉ S) :
    Set.BijOn (Function.update id i j) S (insert j (S \ {i})) := by
  refine ⟨fun k hk => ?_, fun k hk l hl heq => ?_, fun k hk => ?_⟩
  · by_cases h : k = i
    · rw [h, Function.update_self]
      exact Set.mem_insert _ _
    · rw [Function.update_of_ne h]
      exact Set.mem_insert_of_mem _ ⟨hk, h⟩
  · have hnew : ∀ l ∈ S, l ≠ i → j ≠ l := by
      rintro l hl hne rfl
      exact hj.elim hne fun h => h hl
    by_cases h : k = i <;> by_cases h' : l = i
    · rw [h, h']
    · rw [h, Function.update_self, Function.update_of_ne h'] at heq
      exact absurd heq (hnew l hl h')
    · rw [h', Function.update_self, Function.update_of_ne h] at heq
      exact absurd heq.symm (hnew k hk h)
    · rwa [Function.update_of_ne h, Function.update_of_ne h'] at heq
  · rcases hk with rfl | ⟨hk, h⟩
    · exact ⟨i, hi, Function.update_self ..⟩
    · exact ⟨k, hk, Function.update_of_ne h ..⟩

variable [JsRecord E] {out : List E} {t r : E}

-- what the engine makes of a written row: the old identifier is free, but for what the target
-- has kept, and the new one is the same on both sides
theorem written_cells {e : E} (h : A.Written d m (m.entityId e) out t r v v') :
    (∀ k, k ≠ m.entityId e → k ≠ m.entityId t →
      A.cell d m (v'.rewrite m e (assignAll out)) k = A.cell d m v k) ∧
    (A.cell d m (v'.rewrite m e (assignAll out)) (m.entityId t)).Agrees d m ∧
    (A.cell d m (v'.rewrite m e (assignAll out)) (m.entityId t)).truth = [t] ∧
    (m.entityId t ≠ m.entityId e →
      (A.cell d m (v'.rewrite m e (assignAll out)) (m.entityId e)).noted = [] ∧
      (A.cell d m (v'.rewrite m e (assignAll out)) (m.entityId e)).truth = [] ∧
      ((A.cell d m (v'.rewrite m e (assignAll out)) (m.entityId e)).target = [] ∨
        (A.cell d m (v'.rewrite m e (assignAll out)) (m.entityId e)).target =
          (A.cell d m v (m.entityId e)).target)) := by
  obtain ⟨a, ha, hid, hsame⟩ := h.noted
  have hcell := cell_rewrite (f := assignAll out) ha
  refine ⟨fun k hk hk' => ?_, ?_, h.truth, fun hne => ?_⟩
  · obtain ⟨-, -, hother, -⟩ := hcell k
    rw [hother hk (by rwa [hid]), h.others k hk hk']
  · refine .inr ⟨t, r, h.truth, h.target, h.same, ?_⟩
    obtain ⟨-, -, -, -, hsole, hnew⟩ := hcell (m.entityId t)
    by_cases hne : m.entityId t = m.entityId e
    · rw [hsole hne hid.symm]
      refine ⟨by simp, fun x hx => ?_⟩
      rw [List.mem_singleton.mp hx]
      exact hsame
    · obtain ⟨hmem, hall⟩ := hnew hne hid.symm
      refine ⟨List.ne_nil_of_mem hmem, fun x hx => ?_⟩
      rcases hall x hx with rfl | hx
      · exact hsame
      · exact h.memoised hne x hx
  · obtain ⟨-, -, -, hfree, -⟩ := hcell (m.entityId e)
    exact ⟨hfree rfl (by rw [hid]; exact hne.symm), h.left hne⟩

end Following

section Outstanding

variable {W E : Type} (A : Realm W E) (d : Direction W E) (ms : List (Mapper W E))

-- the tasks that are still to be done, where others may be left over that delete what an update
-- has replaced
structure Outstanding (v₀ : Realm.View W E) (left : Prop) (P : Set (Task W E))
    (v : Realm.View W E) : Prop where
  sound : A.Sound v.store
  started : v.started = v₀.started
  called : ∀ x ∈ P, x.mapper ∈ ms ∧ x.Called A d v
  covered : ∀ m ∈ ms, ∀ i, (A.cell d m v i).Agrees d m ∨ (∃ x ∈ P, x.mapper = m ∧ x.id d = i) ∨
    left ∧ ∃ e, m.entityId e = i ∧ (A.cell d m v i).Calls d m (.delete e)
  deletes : left ∨ ∀ x ∈ P, x.operation.Deletes
  follows : A.Follows d ms v₀ v

variable {A d ms} {v₀ v v' : Realm.View W E} {left : Prop} {P : Set (Task W E)} {x y : Task W E}

theorem Outstanding.inStep (h : Outstanding A d ms v₀ left P v) : A.InStep d ms v := by
  intro m hm i
  rcases h.covered m hm i with hagrees | ⟨x, hx, rfl, rfl⟩ | ⟨-, e, hid, hcalls⟩
  · exact .inl hagrees
  · exact .inr ⟨x.operation, rfl, (h.called x hx).2⟩
  · exact .inr ⟨.delete e, hid, hcalls⟩

theorem before_store (x : Task W E) (v : Realm.View W E) :
    (x.before d v).store = v.store ∧ (x.before d v).started = v.started := by
  obtain ⟨m, op⟩ := x
  cases op <;> exact ⟨rfl, rfl⟩

variable [JsRecord E] {i j : String}

theorem eq_of_called (hlaw : A.Lawful d ms) (hx : x.Called A d v) (hy : y.Called A d v)
    (hm : y.mapper = x.mapper) (hid : y.id d = x.id d) : y = x := by
  obtain ⟨m, op⟩ := x
  obtain ⟨m', op'⟩ := y
  obtain rfl : m' = m := hm
  unfold Task.Called at hy
  rw [hid] at hy
  exact congrArg (Task.mk m') (Cell.calls_unique hlaw.sides hy hx)

-- a task leaves all cells alone but the one it is about, and perhaps one that was empty
structure Apart (A : Realm W E) (d : Direction W E) (ms : List (Mapper W E)) (x : Task W E)
    (j : String) (v v' : Realm.View W E) : Prop where
  other : ∀ m : Mapper W E, m.entityName ≠ x.mapper.entityName → ∀ k,
    A.cell d m v' k = A.cell d m v k
  own : ∀ k, k ≠ x.id d → k ≠ j → A.cell d x.mapper v' k = A.cell d x.mapper v k
  fresh : j ≠ x.id d → (A.cell d x.mapper v j).truth = [] ∧ (A.cell d x.mapper v j).target = []
  tables : ∀ name, name ≠ x.mapper.entityName → ∀ dest,
    A.rows dest name v'.store.world = A.rows dest name v.store.world

omit [JsRecord E] in
theorem Apart.follows (h : Apart A d ms x j v v') (hm : x.mapper ∈ ms) (hx : x.Called A d v)
    (hnames : ∀ m ∈ ms, m.entityName = x.mapper.entityName → m = x.mapper)
    (hlineage : ∃ successor : String → String, Set.BijOn successor
      {i | (A.cell d x.mapper v i).truth ≠ []} {i | (A.cell d x.mapper v' i).truth ≠ []}) :
    A.Follows d ms v v' where
  spared m hm' k t r ht hr hsame := by
    by_cases hname : m.entityName = x.mapper.entityName
    · obtain rfl := hnames m hm' hname
      have hk : k ≠ x.id d := by
        rintro rfl
        exact Cell.not_calls_of_same ht hr hsame hx
      have hkj : k ≠ j := by
        rintro rfl
        rw [(h.fresh hk).1] at ht
        cases ht
      rw [h.own k hk hkj]
      exact ⟨ht, hr⟩
    · rw [h.other m hname k]
      exact ⟨ht, hr⟩
  lineage m hm' := by
    by_cases hname : m.entityName = x.mapper.entityName
    · obtain rfl := hnames m hm' hname
      exact hlineage
    · exact ⟨id, by simp only [h.other m hname]; exact Set.bijOn_id _⟩
  apart name hname := h.tables name fun heq => hname _ hm heq.symm

theorem Outstanding.step (hlaw : A.Lawful d ms) (h : Outstanding A d ms v₀ left P v) (hx : x ∈ P)
    (hsound : A.Sound v'.store) (hstarted : v'.started = v.started) (hapart : Apart A d ms x j v v')
    (hlineage : ∃ successor : String → String, Set.BijOn successor
      {i | (A.cell d x.mapper v i).truth ≠ []} {i | (A.cell d x.mapper v' i).truth ≠ []})
    (hnew : (A.cell d x.mapper v' j).Agrees d x.mapper)
    (hold : j ≠ x.id d → (A.cell d x.mapper v' (x.id d)).Agrees d x.mapper ∨
      left ∧ ∃ e, x.mapper.entityId e = x.id d ∧
        (A.cell d x.mapper v' (x.id d)).Calls d x.mapper (.delete e)) :
    Outstanding A d ms v₀ left (P \ {x}) v' := by
  obtain ⟨hm, hcalled⟩ := h.called x hx
  have hnames : ∀ m ∈ ms, m.entityName = x.mapper.entityName → m = x.mapper :=
    fun m hm' hname => List.inj_on_of_nodup_map hlaw.names hm' hm hname
  refine ⟨hsound, hstarted.trans h.started, ?_, fun m hm' k => ?_,
    h.deletes.imp_right fun hall y hy => hall y hy.1,
    h.follows.trans (hapart.follows hm hcalled hnames hlineage)⟩
  · rintro y ⟨hy, hne⟩
    obtain ⟨hym, hycalled⟩ := h.called y hy
    refine ⟨hym, ?_⟩
    unfold Task.Called
    by_cases hname : y.mapper.entityName = x.mapper.entityName
    · have hmapper := hnames _ hym hname
      have hid : y.id d ≠ x.id d := fun hid => hne (eq_of_called hlaw hcalled hycalled hmapper hid)
      have hj : y.id d ≠ j := by
        rintro rfl
        obtain ⟨ht, hr⟩ := hapart.fresh hid
        rw [← hmapper] at ht hr
        exact (Cell.truth_or_target hycalled).elim (fun h => h ht) fun h => h hr
      rw [hmapper, hapart.own _ hid hj, ← hmapper]
      exact hycalled
    · rw [hapart.other _ hname]
      exact hycalled
  · by_cases hname : m.entityName = x.mapper.entityName
    · obtain rfl := hnames m hm' hname
      by_cases hj : k = j
      · subst hj
        exact .inl hnew
      · by_cases hid : k = x.id d
        · subst hid
          exact (hold (Ne.symm hj)).imp_right .inr
        · rw [hapart.own k hid hj]
          rcases h.covered _ hm' k with hagrees | ⟨y, hy, hmapper, rfl⟩ | hrest
          · exact .inl hagrees
          · refine .inr (.inl ⟨y, ⟨hy, ?_⟩, hmapper, rfl⟩)
            rintro rfl
            exact hid rfl
          · exact .inr (.inr hrest)
    · rw [hapart.other m hname k]
      rcases h.covered m hm' k with hagrees | ⟨y, hy, rfl, rfl⟩ | hrest
      · exact .inl hagrees
      · refine .inr (.inl ⟨y, ⟨hy, ?_⟩, rfl, rfl⟩)
        rintro rfl
        exact hname rfl
      · exact .inr (.inr hrest)

variable {e t r : E} {out : List E}

theorem Outstanding.written (hlaw : A.Lawful d ms) (h : Outstanding A d ms v₀ left P v)
    (hx : x ∈ P) (hwrites : ¬ x.operation.Deletes) (hid : x.mapper.entityId e = x.id d)
    (hsteady : A.Steady x.mapper (x.before d v) v')
    (hw : A.Written d x.mapper (x.id d) out t r (x.before d v) v') :
    Outstanding A d ms v₀ left (P \ {x}) (v'.rewrite x.mapper e (assignAll out)) := by
  obtain ⟨hm, hcalled⟩ := h.called x hx
  have hleft : left := h.deletes.resolve_right fun hall => hwrites (hall x hx)
  obtain ⟨-, hbefore, hothers, htruth, htarget⟩ := before_steady hlaw hm hcalled
  obtain ⟨hsame, hagrees, hnew, hold⟩ := written_cells (hid ▸ hw)
  rw [hid] at hsame hold
  have hapart : Apart A d ms x (x.mapper.entityId t) v (v'.rewrite x.mapper e (assignAll out)) := by
    refine ⟨fun m hname k => ?_, fun k hk hj => ?_, fun hne => ?_, fun name hname dest => ?_⟩
    · exact (cell_rewrite_apart hname).trans
        ((cell_of_apart hname hsteady).trans (hbefore m hname k))
    · exact (hsame k hk hj).trans (hothers k hk)
    · rw [← hothers _ hne]
      exact hw.fresh.resolve_left hne
    · exact ((hsteady.apart name hname).2 dest).trans
        (congrArg (fun st : Store W => A.rows dest name st.world) (before_store x v).1)
  refine h.step hlaw hx hsteady.sound (hsteady.started.trans (before_store x v).2) hapart ?_ hagrees
    fun hne => ?_
  · refine ⟨Function.update id (x.id d) (x.mapper.entityId t), ?_⟩
    have hi : (A.cell d x.mapper v (x.id d)).truth ≠ [] := Cell.truth_of_writes hcalled hwrites
    have hset : {k | (A.cell d x.mapper (v'.rewrite x.mapper e (assignAll out)) k).truth ≠ []} =
        insert (x.mapper.entityId t) ({k | (A.cell d x.mapper v k).truth ≠ []} \ {x.id d}) := by
      ext k
      by_cases hj : k = x.mapper.entityId t
      · subst hj
        exact iff_of_true (by simp [hnew]) (Set.mem_insert _ _)
      · by_cases hid' : k = x.id d
        · subst hid'
          exact iff_of_false (fun hne => hne (hold (Ne.symm hj)).2.1) (by simp [hj])
        · simp [hapart.own k hid' hj, hj, hid']
    rw [hset]
    refine bijOn_renamed hi ?_
    by_cases hne : x.mapper.entityId t = x.id d
    · exact .inl hne
    · exact .inr fun hmem => hmem (hapart.fresh hne).1
  · obtain ⟨hnoted, htruth', htarget'⟩ := hold hne
    rw [htarget] at htarget'
    rcases htarget' with hnil | hkept
    · exact .inl (.inl ⟨hnoted, htruth', hnil⟩)
    · rcases Cell.target_of_writes hcalled hwrites with hnil | ⟨r', hr'⟩
      · exact .inl (.inl ⟨hnoted, htruth', hkept.trans hnil⟩)
      · refine .inr ⟨hleft, r', ?_, hnoted, htruth', hkept.trans hr'⟩
        have hmem : r' ∈ (A.cell d x.mapper v (x.id d)).target := by rw [hr']; simp
        exact (mem_withId.mp hmem).2

theorem Outstanding.erased (hlaw : A.Lawful d ms) (h : Outstanding A d ms v₀ left P v)
    (hx : x ∈ P) (hdeletes : x.operation.Deletes) (hsteady : A.Steady x.mapper v v')
    (he : A.Erased d x.mapper (x.id d) v v') : Outstanding A d ms v₀ left (P \ {x}) v' := by
  obtain ⟨hm, hcalled⟩ := h.called x hx
  have hapart : Apart A d ms x (x.id d) v v' := by
    refine ⟨fun m hname k => cell_of_apart hname hsteady, fun k hk _ => he.others k hk,
      fun hne => absurd rfl hne, fun name hname dest => (hsteady.apart name hname).2 dest⟩
  have htruth : ∀ k, (A.cell d x.mapper v' k).truth = (A.cell d x.mapper v k).truth := by
    intro k
    by_cases hk : k = x.id d
    · rw [hk, he.erased]
    · rw [he.others k hk]
  refine h.step hlaw hx hsteady.sound hsteady.started hapart ?_ ?_ fun hne => absurd rfl hne
  · exact ⟨id, by simp only [htruth]; exact Set.bijOn_id _⟩
  · obtain ⟨m, op⟩ := x
    cases op with
    | create e => exact hdeletes.elim
    | update ec => exact hdeletes.elim
    | delete e => exact .inl ⟨(congrArg Cell.noted he.erased).trans hcalled.1,
        (congrArg Cell.truth he.erased).trans hcalled.2.1, congrArg Cell.target he.erased⟩

-- a task that is put off stays to be done, with its entity prepared
theorem Outstanding.refused (hlaw : A.Lawful d ms) (h : Outstanding A d ms v₀ left P v)
    (hx : x ∈ P) (hsteady : A.Steady x.mapper (x.before d v) v')
    (hcells : ∀ k, A.cell d x.mapper v' k = A.cell d x.mapper (x.before d v) k) :
    Outstanding A d ms v₀ left P v' := by
  obtain ⟨hm, hcalled⟩ := h.called x hx
  have hnames : ∀ m ∈ ms, m.entityName = x.mapper.entityName → m = x.mapper :=
    fun m hm' hname => List.inj_on_of_nodup_map hlaw.names hm' hm hname
  obtain ⟨hstill, hbefore, hothers, htruth, htarget⟩ := before_steady hlaw hm hcalled
  have hother : ∀ m : Mapper W E, m.entityName ≠ x.mapper.entityName → ∀ k,
      A.cell d m v' k = A.cell d m v k := fun m hname k =>
    (cell_of_apart hname hsteady).trans (hbefore m hname k)
  have hown : ∀ k, k ≠ x.id d → A.cell d x.mapper v' k = A.cell d x.mapper v k := fun k hk =>
    (hcells k).trans (hothers k hk)
  refine ⟨hsteady.sound, (hsteady.started.trans (before_store x v).2).trans h.started,
    fun y hy => ⟨(h.called y hy).1, ?_⟩, fun m hm' k => ?_, h.deletes, h.follows.trans ?_⟩
  · obtain ⟨hym, hycalled⟩ := h.called y hy
    unfold Task.Called
    by_cases hname : y.mapper.entityName = x.mapper.entityName
    · have hmapper := hnames _ hym hname
      by_cases hid : y.id d = x.id d
      · obtain rfl := eq_of_called hlaw hcalled hycalled hmapper hid
        rw [hcells]
        exact hstill
      · rw [hmapper, hown _ hid, ← hmapper]
        exact hycalled
    · rw [hother _ hname]
      exact hycalled
  · by_cases hname : m.entityName = x.mapper.entityName
    · obtain rfl := hnames m hm' hname
      by_cases hid : k = x.id d
      · exact .inr (.inl ⟨x, hx, rfl, hid.symm⟩)
      · rw [hown k hid]
        exact h.covered _ hm' k
    · rw [hother m hname]
      exact h.covered m hm' k
  · refine follows_of_cells (fun m hm' k => ?_) fun name hname dest => ?_
    · by_cases hname : m.entityName = x.mapper.entityName
      · obtain rfl := hnames m hm' hname
        by_cases hid : k = x.id d
        · rw [hid, hcells]
          exact ⟨htruth, htarget⟩
        · rw [hown k hid]
          exact ⟨rfl, rfl⟩
      · rw [hother m hname]
        exact ⟨rfl, rfl⟩
    · exact ((hsteady.apart name fun heq => hname _ hm heq.symm).2 dest).trans
        (congrArg (fun st : Store W => A.rows dest name st.world) (before_store x v).1)

-- a pass over the tasks does them all, but for deletions that wait for what is left over
theorem perform_resolves (hlaw : A.Lawful d ms) (v₀ : Realm.View W E) (left : Prop) :
    Resolves (Task.perform d) (fun P s => Outstanding A d ms v₀ left P (s.ctx.view d)) (Task.rank A)
      fun x => left ∧ x.operation.Deletes := by
  intro P x s hx h
  obtain ⟨hm, hcalled⟩ := h.called x hx
  rcases perform_cases hlaw hm h.sound h.inStep hcalled with
    ⟨out, v', t, hrun, hview, hsteady, heffect⟩ | ⟨e, t, hrun, hstack, hsteady, hcells, hwhy⟩
  · refine .inl ⟨t, hrun, ?_⟩
    change Outstanding A d ms v₀ left (P \ {x}) (t.ctx.view d)
    rw [hview]
    obtain ⟨m, op⟩ := x
    cases op with
    | create e =>
      obtain ⟨t, r, hw⟩ := heffect
      exact h.written hlaw hx id rfl hsteady hw
    | update ec =>
      obtain ⟨t, r, hw⟩ := heffect
      exact h.written hlaw hx id rfl hsteady hw
    | delete e => exact h.erased hlaw hx trivial hsteady heffect
  · refine .inr ⟨e, t, hrun, hstack, h.refused hlaw hx hsteady hcells, ?_⟩
    obtain ⟨m, hm', op, hop, hrank⟩ := hwhy
    rcases called_before hlaw hm hcalled hm' hop rfl with ⟨rfl, rfl⟩ | hop
    · exact absurd hrank (lt_irrefl _)
    · rcases h.covered m hm' (op.id d m) with hagrees | ⟨y, hy, rfl, hid⟩ | ⟨hleft, e', -, hdelete⟩
      · exact absurd hop (Cell.not_calls_of_agrees hagrees)
      · refine .inr ⟨y, hy, ?_⟩
        have hcall : (A.cell d y.mapper (s.ctx.view d) (op.id d y.mapper)).Calls d y.mapper
          y.operation := hid ▸ (h.called y hy).2
        unfold Task.rank
        rwa [Cell.calls_unique hlaw.sides hcall hop]
      · obtain rfl := Cell.calls_unique hlaw.sides hop hdelete
        refine .inl ⟨hleft, ?_⟩
        by_contra hwrites
        have hlt := hlaw.deletesLast m.entityName x.mapper.entityName (.delete e') x.operation
          trivial hwrites
        exact absurd (hrank.trans hlt) (lt_irrefl _)

end Outstanding

end Iasql
