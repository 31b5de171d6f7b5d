import Iasql.Brackets

namespace Iasql

open Program Prog OrderedMap

section Definitions

variable {W E : Type}

-- sync deletes the row of the resource, or apply makes the resource a second time
def Event.Strikes (name id : String) : Event W E → Prop
  | .delete .db m e | .create .cloud m e => m.entityName = name ∧ m.entityId e = id
  | _ => False

def Spared (name id : String) (trace : List (Event W E)) : Prop :=
  ∀ ev ∈ trace, ¬ ev.Strikes name id

instance (ev : Event W E) (name id : String) : Decidable (ev.Strikes name id) := by
  cases ev with
  | delete dest m e => cases dest <;> unfold Event.Strikes <;> infer_instance
  | create dest m e => cases dest <;> unfold Event.Strikes <;> infer_instance
  | _ => exact inferInstanceAs (Decidable False)

instance (name id : String) (trace : List (Event W E)) :
    Decidable (Spared name id trace) := List.decidableBAll _ _

theorem not_strikes_of_not_isWrite {ev : Event W E} {name id : String} (h : ev.isWrite = false) :
    ¬ ev.Strikes name id := by
  cases ev <;> simp_all [Event.isWrite, Event.Strikes]

theorem spared_append {name id : String} {trace : List (Event W E)} {ev : Event W E}
    (h : Spared name id trace) (hev : ¬ ev.Strikes name id) : Spared name id (trace ++ [ev]) := by
  intro x hx
  rcases List.mem_append.mp hx with hx | hx
  · exact h x hx
  · obtain rfl := List.mem_singleton.mp hx
    exact hev

variable (m : Mapper W E) (id : String)

def Covers (ctx : Context W E) : Prop :=
  ∃ e, find id (ctx.memo .cloud m.entityName) = some e ∧ m.entityId e = id

-- what JavaScript and the ORM do to a record whose cloud columns spell the id
structure Keyed [JsRecord E] : Prop where
  assign : ∀ a b, m.entityId b = id → m.entityId (JsRecord.assign a b) = id
  copyId : ∀ a b, m.entityId b = id → m.entityId (JsRecord.copyId a b) = id
  created : ∀ e c out c', m.entityId e = id → m.db.createFn e c = (.returned out, c') →
    ∀ o ∈ out, m.entityId o = id
  updated : ∀ e c out c', m.entityId e = id → m.db.updateFn e c = (.returned out, c') →
    ∀ o ∈ out, m.entityId o = id

-- what the calls of sync do
structure CrudKeeps (C : Frame (Context W E)) (m : Mapper W E) : Prop where
  create : ∀ e, C.Keeps (m.db.createFn e)
  read : ∀ dest, C.Keeps (m.crud dest).readFn
  update : ∀ e, C.Keeps (m.db.updateFn e)
  delete : ∀ e, C.Keeps (m.db.deleteFn e)

variable (missed : W → Prop)

def missedFrame : Frame (Store W) := Frame.ofInvariant fun st => missed st.world

def coverFrame : Frame (Context W E) where
  rel c d := (missed c.store.world → missed d.store.world) ∧
    (Covers m id c → Covers m id d ∨ missed d.store.world)
  refl _ := ⟨fun h => h, .inl⟩
  trans h k := ⟨k.1 ∘ h.1, fun hc => (h.2 hc).elim k.2 fun hm => .inr (k.1 hm)⟩

-- no event strikes the resource as long as no full read has missed it
def sparedFrame (name : String) : StoreFrame W E where
  rel s t := (missed s.ctx.store.world → missed t.ctx.store.world) ∧
    (Spared name id s.trace → Spared name id t.trace ∨ missed t.ctx.store.world)
  refl _ := ⟨fun h => h, .inl⟩
  trans h k := ⟨k.1 ∘ h.1, fun hs => (h.2 hs).elim k.2 fun hm => .inr (k.1 hm)⟩
  store := missedFrame missed
  same ht _ hm := ⟨hm, fun hs => .inl (ht ▸ hs)⟩
  observes _ _ hev := ⟨fun h => h, fun hs => .inl (spared_append hs (not_strikes_of_not_isWrite hev))⟩

def onContext (C : Frame (Context W E)) : Frame (Engine W E) where
  rel s t := C.rel s.ctx t.ctx
  refl s := C.refl s.ctx
  trans := C.trans

-- each full read that returns has the resource in its result, or counts as having missed it
def ReadsOrMisses : Prop :=
  ∀ c out c', m.cloud.readFn c = (.returned out, c') →
    (∃ e ∈ out, m.entityId e = id) ∨ missed c'.store.world

structure Watched [JsRecord E] (env : Env W E) : Prop where
  keyed : Keyed m id
  reads : ReadsOrMisses m id missed
  keeps : EnvKeeps (missedFrame missed) env
  cruds : ∀ mod ∈ env.allModules, ∀ m' ∈ mod.mappers, CrudKeeps (coverFrame m id missed) m'
  unique : ∀ mod ∈ env.allModules, ∀ m' ∈ mod.mappers, m'.entityName = m.entityName → m' = m

end Definitions

section Memo

variable {W E : Type} {m m' : Mapper W E} {id : String} {c : Context W E} {dest : Dest}

theorem memo_putEntries_self (c : Context W E) (dest : Dest) (name : String)
    (entries : List (String × E)) : (c.putEntries dest name entries).memo dest name = entries := by
  cases dest <;> simp [Context.putEntries, Context.setMemo, Context.memo]

theorem memo_putEntries_other {name name' : String} {entries : List (String × E)}
    (h : dest = .cloud → name ≠ name') :
    (c.putEntries dest name entries).memo .cloud name' = c.memo .cloud name' := by
  cases dest with
  | db => rfl
  | cloud => simp [Context.putEntries, Context.setMemo, Context.memo, (h rfl).symm]

theorem covers_of_memo {d : Context W E} (h : Covers m id c)
    (heq : d.memo .cloud m.entityName = c.memo .cloud m.entityName) : Covers m id d := by
  obtain ⟨e, hfind, hid⟩ := h
  exact ⟨e, heq ▸ hfind, hid⟩

theorem covers_put {d : Context W E} {k : String} {v : E} (h : k = id ∨ Covers m id c)
    (hv : k = id → m.entityId v = id)
    (heq : d.memo .cloud m.entityName = put k v (c.memo .cloud m.entityName)) : Covers m id d := by
  by_cases hk : k = id
  · subst hk
    exact ⟨v, by rw [heq, find_put_self], hv rfl⟩
  · obtain ⟨e, hfind, hid⟩ := h.resolve_left hk
    exact ⟨e, by rw [heq, find_put_ne _ _ (Ne.symm hk)]; exact hfind, hid⟩

variable [JsRecord E] (hk : Keyed m id)

include hk in
theorem covers_memoOne_own {e : E} (h : m.entityId e = id ∨ Covers m id c) :
    Covers m id (m.memoOne .cloud c e) := by
  unfold Mapper.memoOne
  simp only
  split
  · exact covers_put h (fun he => he) (memo_putEntries_self c _ _ _)
  · next realE hfind =>
    exact covers_put h (hk.assign realE e) (memo_putEntries_self c _ _ _)

theorem memoOne_other (e : E) (h : dest = .cloud → m'.entityName ≠ m.entityName) :
    (m'.memoOne dest c e).memo .cloud m.entityName = c.memo .cloud m.entityName := by
  unfold Mapper.memoOne
  simp only
  split <;> exact memo_putEntries_other h

include hk in
theorem covers_memo_own {es : List E} (h : (∃ e ∈ es, m.entityId e = id) ∨ Covers m id c) :
    Covers m id (m.memo .cloud c es) := by
  induction es generalizing c with
  | nil => exact h.resolve_left (by simp)
  | cons e es ih =>
    refine ih (c := m.memoOne .cloud c e) ?_
    rcases h with ⟨x, hx, hid⟩ | h
    · rcases List.mem_cons.mp hx with rfl | hx
      · exact .inr (covers_memoOne_own hk (.inl hid))
      · exact .inl ⟨x, hx, hid⟩
    · exact .inr (covers_memoOne_own hk (.inr h))

include hk in
theorem covers_memo (hu : m'.entityName = m.entityName → m' = m) (es : List E)
    (h : Covers m id c) : Covers m id (m'.memo dest c es) := by
  by_cases hown : dest = .cloud ∧ m'.entityName = m.entityName
  · obtain ⟨rfl, hname⟩ := hown
    obtain rfl := hu hname
    exact covers_memo_own hk (.inr h)
  · induction es generalizing c with
    | nil => exact h
    | cons e es ih =>
      refine ih (c := m'.memoOne dest c e) (covers_of_memo h (memoOne_other e ?_))
      exact fun hdest hname => hown ⟨hdest, hname⟩

omit [JsRecord E] in
theorem find_replaceLast (p : String × E → Bool) (f : E → E) {k : String} {v : E}
    {xs : List (String × E)} (h : find k xs = some v) :
    find k (replaceLast p (fun q => (q.1, f q.2)) xs) = some v ∨
      p (k, v) = true ∧ find k (replaceLast p (fun q => (q.1, f q.2)) xs) = some (f v) := by
  induction xs with
  | nil => cases h
  | cons q xs ih =>
    obtain ⟨l, w⟩ := q
    rw [find] at h
    rw [replaceLast]
    split
    · rw [find]
      split at h
      · exact .inl (by rw [if_pos ‹_›, h])
      · rw [if_neg ‹_›]
        exact ih h
    · split
      · next hp =>
        rw [find]
        split at h
        · next hl =>
          obtain rfl := Option.some.inj h
          exact .inr ⟨hl ▸ hp, by rw [if_pos hl]⟩
        · exact .inl (by rw [if_neg ‹_›, h])
      · exact .inl (by rw [find]; exact h)

omit [JsRecord E] in
theorem covers_overwrite {e : E} {f : E → E} (hu : m'.entityName = m.entityName → m' = m)
    (hf : m' = m → m.entityId e = id → ∀ v, m.entityId v = id → m.entityId (f v) = id)
    (h : Covers m id c) : Covers m id (overwrite m' .cloud e f c) := by
  by_cases hname : m'.entityName = m.entityName
  · obtain rfl := hu hname
    obtain ⟨v, hfind, hid⟩ := h
    rcases find_replaceLast (fun p => m'.entityId p.2 == m'.entityId e) f hfind with hsame | ⟨hp, hnew⟩
    · exact ⟨v, by rw [overwrite, memo_putEntries_self]; exact hsame, hid⟩
    · refine ⟨f v, by rw [overwrite, memo_putEntries_self]; exact hnew, hf rfl ?_ v hid⟩
      rw [← hid]
      exact (beq_iff_eq.mp hp).symm
  · exact covers_of_memo h (memo_putEntries_other fun _ => hname)

include hk in
theorem assignAll_keyed {out : List E} (h : ∀ o ∈ out, m.entityId o = id) {v : E}
    (hv : m.entityId v = id) : m.entityId (assignAll out v) = id := by
  induction out generalizing v with
  | nil => exact hv
  | cons o out ih =>
    exact ih (fun x hx => h x (by simp [hx])) (v := JsRecord.assign v o)
      (hk.assign v o (h o (by simp)))

end Memo

section Operations

variable {W E : Type} [JsRecord E] {env : Env W E} {m m' : Mapper W E} {id : String}
  {missed : W → Prop}

omit [JsRecord E] in
theorem keeps_coverWrite {f : Context W E → Context W E} (hstore : ∀ c, (f c).store = c.store)
    (h : ∀ c, Covers m id c → Covers m id (f c)) :
    (coverFrame m id missed).Keeps (Prog.writes f : Prog (Context W E) Thrown Unit) := by
  intro c
  refine ⟨fun hm => ?_, fun hc => .inl (h c hc)⟩
  change missed (f c).store.world
  rwa [hstore]

omit [JsRecord E] in
theorem keeps_cover_rethrow {α : Type} (dest : Dest) (verb : String) (err : Thrown) :
    (coverFrame m id missed).Keeps (m'.rethrow dest verb err : Prog (Context W E) Thrown α) := by
  cases err <;> exact Frame.keeps_fail _

theorem read_cloud_covers (hk : Keyed m id) (hr : ReadsOrMisses m id missed) :
    Returns (fun _ => True) (m.read .cloud) fun _ c => Covers m id c ∨ missed c.store.world := by
  intro c _ d _ hread
  obtain ⟨o, c', ho, hrest⟩ := bind_returned_inv hread
  rcases o with err | out
  · cases err <;> cases hrest
  · have hin := hr c out c' (attempt_ok.mp ho)
    cases hrest
    rw [memo_store]
    exact hin.imp_left fun hin => covers_memo_own hk (.inl hin)

variable (hk : Keyed m id) (hu : m'.entityName = m.entityName → m' = m)
  (hc : CrudKeeps (coverFrame m id missed) m')

include hk hu hc

theorem keeps_cover_read (dest : Dest) : (coverFrame m id missed).Keeps (m'.read dest) := by
  refine Frame.keeps_bind (Frame.keeps_attempt (hc.read dest)) ?_
  rintro (err | out)
  · exact keeps_cover_rethrow dest _ err
  · exact keeps_coverWrite (fun c => memo_store dest c _) fun c => covers_memo hk hu out

theorem keeps_cover_create (e : E) : (coverFrame m id missed).Keeps (m'.create .db e) := by
  refine Frame.keeps_bind (keeps_coverWrite (fun c => memo_store .db c _) fun c =>
    covers_memo hk hu _) fun _ => ?_
  refine Frame.keeps_bind (Frame.keeps_attempt (hc.create e)) ?_
  rintro (err | out)
  · exact Frame.keeps_bind (keeps_coverWrite (fun c => unmemo_store .db c _) fun c h =>
      covers_of_memo h rfl) fun _ => keeps_cover_rethrow .db _ err
  · exact Frame.keeps_bind (keeps_coverWrite (fun c => memo_store .db c _) fun c =>
      covers_memo hk hu _) fun _ => Frame.keeps_pure _

theorem keeps_cover_update (e : E) : (coverFrame m id missed).Keeps (m'.update .db e) := by
  refine Frame.keeps_bind (Frame.keeps_attempt (hc.update e)) ?_
  rintro (err | out)
  · exact keeps_cover_rethrow .db _ err
  · exact Frame.keeps_bind (keeps_coverWrite (fun c => memo_store .db c _) fun c =>
      covers_memo hk hu _) fun _ => Frame.keeps_pure _

omit [JsRecord E] hk hu in
theorem keeps_cover_delete (e : E) : (coverFrame m id missed).Keeps (m'.delete .db e) := by
  refine Frame.keeps_bind (Frame.keeps_attempt (hc.delete e)) ?_
  rintro (err | _)
  · exact keeps_cover_rethrow .db _ err
  · exact keeps_coverWrite (fun c => unmemo_store .db c _) fun c h => covers_of_memo h rfl

end Operations

section Observation

variable {W E : Type} [JsRecord E] {env : Env W E} {m : Mapper W E} {id : String}
  {missed : W → Prop} (h : Watched m id missed env) (force : Bool) {mappers : List (Mapper W E)}
  {mods : List (Module W E)}

omit [JsRecord E] in
theorem covers_onStore {α : Type} {p : Prog (Store W) Thrown α} (hp : (missedFrame missed).Keeps p) :
    (onContext (coverFrame m id missed)).Keeps (onStore p) :=
  fun s => ⟨hp s.ctx.store, .inl⟩

omit [JsRecord E] in
theorem covers_onCtx {α : Type} {p : Prog (Context W E) Thrown α}
    (hp : (coverFrame m id missed).Keeps p) :
    (onContext (coverFrame m id missed)).Keeps (onCtx p) := fun s => hp s.ctx

omit [JsRecord E] in
theorem covers_emit (ev : Event W E) : (onContext (coverFrame m id missed)).Keeps (emit ev) :=
  fun s => (coverFrame m id missed).refl s.ctx

omit [JsRecord E] in
theorem covers_modifyCtx {f : Context W E → Context W E} (hstore : ∀ c, (f c).store = c.store)
    (hf : ∀ c, Covers m id c → Covers m id (f c)) :
    (onContext (coverFrame m id missed)).Keeps (modifyCtx f) :=
  covers_onCtx (keeps_coverWrite hstore hf)

omit [JsRecord E] in
theorem covers_present (mods : List (Option (Module W E))) :
    (onContext (coverFrame m id missed)).Keeps (present mods) := by
  induction mods with
  | nil => exact Frame.keeps_pure _
  | cons o mods ih =>
    cases o with
    | none => exact Frame.keeps_fail _
    | some mod => exact Frame.keeps_bind ih fun _ => Frame.keeps_pure _

include h

theorem covers_getImportedModules (v : String) :
    (onContext (coverFrame m id missed)).Keeps (getImportedModules env force v) := by
  refine Frame.keeps_ite (Frame.keeps_fail _)
    (Frame.keeps_bind (covers_onStore h.keeps.upgrading) fun _ => ?_)
  exact Frame.keeps_ite (Frame.keeps_fail _) (Frame.keeps_pure _)

theorem covers_getChangesAfterCommitStartedByEntity :
    (onContext (coverFrame m id missed)).Keeps (getChangesAfterCommitStartedByEntity env force) := by
  have hlog : ∀ {α : Type} (f : List IasqlAuditLog → α),
      (onContext (coverFrame m id missed)).Keeps (readLog env f : Prog (Engine W E) Thrown α) :=
    fun f => Frame.keeps_bind (covers_onStore h.keeps.roundTrip) fun _ => Frame.keeps_reads _
  refine Frame.keeps_bind (Frame.keeps_reads _) fun _ => ?_
  refine Frame.keeps_bind (hlog _) fun _ => ?_
  refine Frame.keeps_bind (covers_onStore h.keeps.versionString) fun _ => ?_
  refine Frame.keeps_bind_of (covers_getImportedModules h force _) fun s mods t himported => ?_
  obtain rfl := getImportedModules_returned himported
  refine Frame.keeps_bind (Frame.keeps_bind (covers_onStore h.keeps.roundTrip) fun _ =>
    Frame.keeps_reads _) (fun names => ?_) t
  refine Frame.keeps_bind_of (covers_present _) fun s mods t hpresent => ?_
  refine covers_onStore (keeps_getChangesByEntity _ fun mod hmod => ?_) t
  have hmem : some mod ∈ mods.map some := List.mem_map_of_mem hmod
  rw [← present_returned hpresent] at hmem
  exact h.keeps.modules mod (mem_getModulesWithChanges hmem)

theorem covers_chooseFilter (hmods : mods ⊆ env.allModules) (rows : List IasqlAuditLog)
    (changes : ChangeSet E) : (onContext (coverFrame m id missed)).Keeps
      (chooseFilter rows (indexModsByTable mods) changes) := by
  refine Frame.keeps_ite (Frame.keeps_pure _) ?_
  refine Frame.keeps_bind (covers_onStore (keeps_getChangesByEntity rows fun mod hmod =>
    h.keeps.modules mod (hmods hmod))) fun _ => ?_
  exact Frame.keeps_bind (covers_emit _) fun _ => Frame.keeps_pure _

theorem covers_finish (oldOrm : Option Nat) :
    (onContext (coverFrame m id missed)).Keeps (finish env oldOrm) :=
  Frame.keeps_bind (Frame.keeps_reads _) fun orm =>
    Frame.keeps_bind (covers_onStore (h.keeps.dropConn orm)) fun _ =>
      covers_modifyCtx (fun _ => rfl) fun _ hc => covers_of_memo hc rfl

variable (hmappers : ∀ m' ∈ mappers, ∃ mod ∈ env.allModules, m' ∈ mod.mappers)

include hmappers

theorem covers_readOne (dest : Dest) {m' : Mapper W E} (hm : m' ∈ mappers) :
    (onContext (coverFrame m id missed)).Keeps (readOne dest m') := by
  obtain ⟨mod, hmod, hmem⟩ := hmappers m' hm
  exact Frame.keeps_bind (covers_onCtx (keeps_cover_read h.keyed (h.unique mod hmod m' hmem)
    (h.cruds mod hmod m' hmem) dest)) fun _ => covers_emit _

theorem covers_readSide_db (known : ChangeSet E) :
    (onContext (coverFrame m id missed)).Keeps (readSide env force mappers .db known) := by
  refine Frame.keeps_bind (Frame.keeps_bind (covers_emit _) fun _ =>
    covers_modifyCtx (fun _ => rfl) fun _ hc => covers_of_memo hc rfl) fun _ => ?_
  refine Frame.keeps_bind (keeps_lazyLoader fun g hg => ?_) fun _ => ?_
  · obtain ⟨m', hm, rfl⟩ := List.mem_map.mp hg
    exact covers_readOne h hmappers .db hm
  · exact Frame.keeps_bind (covers_getChangesAfterCommitStartedByEntity h force) fun _ =>
      Frame.keeps_bind (covers_emit _) fun _ => Frame.keeps_pure _

theorem readSide_cloud_covers (hm : m ∈ mappers) (known : ChangeSet E) :
    Returns (fun _ => True) (readSide env force mappers .cloud known) fun _ s =>
      Covers m id s.ctx ∨ missed s.ctx.store.world := by
  intro s ch t _ hrun
  obtain ⟨_, u, -, hrest⟩ := bind_returned_inv hrun
  obtain ⟨_, v, hread, hpure⟩ := bind_returned_inv hrest
  cases hpure
  have hall := @lazyLoader_done _ (onContext (coverFrame m id missed)) _
    (fun m' s => m' = m → Covers m id s.ctx ∨ missed s.ctx.store.world) u
    (fun m' s t hrel hd heq => (hd heq).elim hrel.2 fun hmiss => .inr (hrel.1 hmiss)) _ _
    (fun m' hm' => covers_readOne h hmappers .cloud hm') (fun m' hm' => ?_) u () t
    ((onContext _).refl u) hread
  · exact hall.2 m hm rfl
  · rintro w _ x - hone rfl
    obtain ⟨_, y, hown, hemit⟩ := bind_returned_inv hone
    cases hemit
    obtain ⟨hfst, rfl⟩ : (m'.read .cloud w.ctx).1 = .returned () ∧
        { w with ctx := (m'.read .cloud w.ctx).2 } = y := Prod.mk.inj hown
    exact read_cloud_covers h.keyed h.reads w.ctx () _ trivial (run_eq hfst)

end Observation

section Comparison

variable {W E : Type} {m : Mapper W E} {id : String} {missed : W → Prop}
  {mappers : List (Mapper W E)} {flt : Filter E} {ctx : Context W E}

def Blameless (m : Mapper W E) (id : String) (records : List (DiffRecord W E)) : Prop :=
  ∀ r ∈ records, ∀ e ∈ r.diff.entitiesInDbOnly,
    ¬ (r.mapper.entityName = m.entityName ∧ r.mapper.entityId e = id)

theorem blameless_of_covers (hu : ∀ m' ∈ mappers, m'.entityName = m.entityName → m' = m)
    (hc : m ∈ mappers → Covers m id ctx) : Blameless m id (recordsOf mappers flt ctx) := by
  rintro r hr e he ⟨hname, hid⟩
  obtain ⟨m', hm, rfl⟩ := List.mem_map.mp hr
  obtain rfl := hu m' hm hname
  obtain ⟨i, hdb, hcloud⟩ := mem_entitiesInDbOnly.mp (List.mem_filter.mp he).1
  obtain ⟨v, hfind, hv⟩ := hc hm
  have hi : i = id := (lastWith_key hdb).1.symm.trans hid
  refine lastWith_eq_none.mp hcloud v ?_ (hv.trans hi.symm)
  exact List.mem_map.mpr ⟨(id, v), mem_of_find hfind, rfl⟩

theorem spared_emit {ev : Event W E} (h : ¬ ev.Strikes m.entityName id) :
    (sparedFrame id missed m.entityName).Keeps (emit ev) :=
  fun _ => ⟨fun hm => hm, fun hs => .inl (spared_append hs h)⟩

def missedStoreFrame (missed : W → Prop) : StoreFrame W E where
  rel s t := missed s.ctx.store.world → missed t.ctx.store.world
  refl _ h := h
  trans h k := k ∘ h
  store := missedFrame missed
  same _ _ h := h
  observes _ _ _ h := h

theorem missed_emit (ev : Event W E) : (missedStoreFrame missed).Keeps (emit ev) := fun _ h => h

variable [JsRecord E] {d : Direction W E} {records : List (DiffRecord W E)}

theorem spared_generators (hd : d.truth ≠ d.target)
    (hm : ∀ r ∈ records, MapperKeeps (missedFrame missed) r.mapper)
    (hb : Blameless m id records) {g : Prog (Engine W E) Thrown Unit}
    (hg : g ∈ generators d records) : (sparedFrame id missed m.entityName).Keeps g := by
  let F := sparedFrame (W := W) (E := E) id missed m.entityName
  have hwrite : ∀ {e : E} {f : E → E} {m' : Mapper W E},
      F.Keeps (modifyCtx (overwrite m' d.truth e f)) :=
    F.keeps_modifyCtx fun c => overwrite_store _ _ _ c
  rcases List.mem_append.mp hg with hg | hg
  · obtain ⟨r, hr, hg⟩ := List.mem_flatMap.mp hg
    rcases List.mem_append.mp hg with hg | hg
    · obtain ⟨e, he, rfl⟩ := List.mem_map.mp hg
      refine Frame.keeps_bind (spared_emit ?_) fun _ =>
        Frame.keeps_bind (F.keeps_onCtx ((hm r hr).keeps_create _ _)) fun _ => hwrite
      intro hstrike
      cases ht : d.target with
      | db => rw [ht] at hstrike; exact hstrike
      | cloud =>
        rw [ht] at hstrike hd
        have htruth : d.truth = .db := by cases hb : d.truth <;> simp_all
        rw [htruth] at he
        exact hb r hr e he hstrike
    · obtain ⟨ec, -, rfl⟩ := List.mem_map.mp hg
      exact Frame.keeps_bind hwrite fun _ => Frame.keeps_bind (spared_emit fun h => h) fun _ =>
        Frame.keeps_bind (F.keeps_onCtx ((hm r hr).keeps_update _ _)) fun _ => hwrite
  · obtain ⟨r, hr, hg⟩ := List.mem_flatMap.mp hg
    have hr := List.mem_reverse.mp hr
    obtain ⟨e, he, rfl⟩ := List.mem_map.mp hg
    refine Frame.keeps_bind (spared_emit ?_) fun _ =>
      F.keeps_onCtx ((hm r hr).keeps_delete _ _)
    intro hstrike
    cases ht : d.target with
    | db => rw [ht] at hstrike he; exact hb r hr e he hstrike
    | cloud => rw [ht] at hstrike; exact hstrike

theorem created_keyed (hk : Keyed m id) {e : E} (he : m.entityId e = id) {s t : Engine W E}
    {out : List E} (h : onCtx (m.create .db e) s = (.returned out, t)) :
    ∀ o ∈ out, m.entityId o = id := by
  obtain ⟨hfst, -⟩ : (m.create .db e s.ctx).1 = .returned out ∧ _ := Prod.mk.inj h
  obtain ⟨_, c, -, hrest⟩ := bind_returned_inv (run_eq hfst)
  obtain ⟨o, c', ho, hrest⟩ := bind_returned_inv hrest
  rcases o with err | made
  · obtain ⟨_, _, -, hthrow⟩ := bind_returned_inv hrest
    cases err <;> cases hthrow
  · obtain ⟨_, _, -, hpure⟩ := bind_returned_inv hrest
    obtain rfl : made = out := Outcome.returned.inj (congrArg Prod.fst hpure)
    exact hk.created e c made c' he (attempt_ok.mp ho)

theorem updated_keyed (hk : Keyed m id) {e : E} (he : m.entityId e = id) {s t : Engine W E}
    {out : List E} (h : onCtx (m.update .db e) s = (.returned out, t)) :
    ∀ o ∈ out, m.entityId o = id := by
  obtain ⟨hfst, -⟩ : (m.update .db e s.ctx).1 = .returned out ∧ _ := Prod.mk.inj h
  obtain ⟨o, c', ho, hrest⟩ := bind_returned_inv (run_eq hfst)
  rcases o with err | made
  · cases err <;> cases hrest
  · obtain ⟨_, _, -, hpure⟩ := bind_returned_inv hrest
    obtain rfl : made = out := Outcome.returned.inj (congrArg Prod.fst hpure)
    exact hk.updated e s.ctx made c' he (attempt_ok.mp ho)

theorem covers_generators (hk : Keyed m id)
    (hm : ∀ r ∈ records, (r.mapper.entityName = m.entityName → r.mapper = m) ∧
      CrudKeeps (coverFrame m id missed) r.mapper)
    {g : Prog (Engine W E) Thrown Unit} (hg : g ∈ generators syncDirection records) :
    (onContext (coverFrame m id missed)).Keeps g := by
  rcases List.mem_append.mp hg with hg | hg
  · obtain ⟨r, hr, hg⟩ := List.mem_flatMap.mp hg
    obtain ⟨hu, hc⟩ := hm r hr
    have hwrite : ∀ {e : E} {f : E → E}, (r.mapper = m → m.entityId e = id →
        ∀ v, m.entityId v = id → m.entityId (f v) = id) →
        (onContext (coverFrame m id missed)).Keeps (modifyCtx (overwrite r.mapper .cloud e f)) :=
      fun hf => covers_modifyCtx (fun c => overwrite_store _ _ _ c) fun c => covers_overwrite hu hf
    rcases List.mem_append.mp hg with hg | hg
    · obtain ⟨e, -, rfl⟩ := List.mem_map.mp hg
      refine Frame.keeps_bind (covers_emit _) fun _ => ?_
      refine Frame.keeps_bind_of (covers_onCtx (keeps_cover_create hk hu hc e))
        fun s out t hout => hwrite (fun hown he v hv => ?_) t
      rw [hown] at hout
      exact assignAll_keyed hk (created_keyed hk he hout) hv
    · obtain ⟨ec, -, rfl⟩ := List.mem_map.mp hg
      refine Frame.keeps_bind (hwrite fun _ _ v hv => hk.copyId ec.1 v hv) fun _ => ?_
      refine Frame.keeps_bind (covers_emit _) fun _ => ?_
      refine Frame.keeps_bind_of (covers_onCtx (keeps_cover_update hk hu hc _))
        fun s out t hout => hwrite (fun hown he v hv => ?_) t
      rw [hown] at hout
      exact assignAll_keyed hk (updated_keyed hk (hk.copyId ec.1 ec.2 he) hout) hv
  · obtain ⟨r, hr, hg⟩ := List.mem_flatMap.mp hg
    obtain ⟨e, -, rfl⟩ := List.mem_map.mp hg
    exact Frame.keeps_bind (covers_emit _) fun _ =>
      covers_onCtx (keeps_cover_delete (hm r (List.mem_reverse.mp hr)).2 e)

end Comparison

section Rounds

variable {W E : Type} [JsRecord E] {env : Env W E} {m : Mapper W E} {id : String}
  {missed : W → Prop} (h : Watched m id missed env) (force dryRun : Bool) {d : Direction W E}
  {mods : List (Module W E)} (hmods : mods ⊆ env.allModules) (rows : List IasqlAuditLog)

-- where the full read of the handled mappers stands
def Safe (m : Mapper W E) (id : String) (missed : W → Prop) (mappers : List (Mapper W E))
    (s : Engine W E) : Prop :=
  m ∈ mappers → Covers m id s.ctx ∨ missed s.ctx.store.world

omit [JsRecord E] in
theorem safe_of_rel {mappers : List (Mapper W E)} {s t : Engine W E}
    (hrel : (onContext (coverFrame m id missed)).rel s t) (hs : Safe m id missed mappers s) :
    Safe m id missed mappers t :=
  fun hm => (hs hm).elim hrel.2 fun hmiss => .inr (hrel.1 hmiss)

include hmods in
omit [JsRecord E] in
theorem mem_handled {m' : Mapper W E} (hm : m' ∈ handled d mods) :
    ∃ mod ∈ env.allModules, m' ∈ mod.mappers := by
  obtain ⟨mod, hmod, hmem⟩ := List.mem_flatMap.mp (List.mem_filter.mp hm).1
  exact ⟨mod, hmods hmod, hmem⟩

include h hmods

theorem records_keep {flt : Filter E} {ctx : Context W E} :
    ∀ r ∈ recordsOf (handled d mods) flt ctx, MapperKeeps (missedFrame missed) r.mapper ∧
      (r.mapper.entityName = m.entityName → r.mapper = m) ∧
        CrudKeeps (coverFrame m id missed) r.mapper := by
  intro r hr
  obtain ⟨m', hm, rfl⟩ := List.mem_map.mp hr
  obtain ⟨mod, hmod, hmem⟩ := mem_handled hmods hm
  exact ⟨h.keeps.modules mod hmod m' hmem, h.unique mod hmod m' hmem, h.cruds mod hmod m' hmem⟩

theorem rel_act (hd : d.truth ≠ d.target) (l : Loop) (flt : Filter E) {s : Engine W E}
    (hs : Safe m id missed (handled d mods) s) :
    (sparedFrame id missed m.entityName).rel s
      (act d l (recordsOf (handled d mods) flt s.ctx) s).2 := by
  have hmapper := fun r hr => (@records_keep _ _ _ _ _ _ _ h d _ hmods flt s.ctx r hr).1
  by_cases hmiss : missed s.ctx.store.world
  · have hmapper : ∀ m' ∈ handled d mods, MapperKeeps (missedFrame missed) m' := by
      intro m' hm'
      obtain ⟨mod, hmod, hmem⟩ := mem_handled hmods hm'
      exact h.keeps.modules mod hmod m' hmem
    have hkeep : (missedStoreFrame missed).rel s
        (act d l (recordsOf (handled d mods) flt s.ctx) s).2 :=
      (missedStoreFrame missed).keeps_act d (fun _ =>
        (missedStoreFrame missed).keeps_generators missed_emit d hmapper) s
    exact ⟨hkeep, fun _ => .inr (hkeep hmiss)⟩
  · have hb : Blameless m id (recordsOf (handled d mods) flt s.ctx) := by
      refine blameless_of_covers (fun m' hm' => ?_) fun hm => (hs hm).resolve_right hmiss
      obtain ⟨mod, hmod, hmem⟩ := mem_handled hmods hm'
      exact h.unique mod hmod m' hmem
    exact (sparedFrame id missed m.entityName).keeps_act d
      (fun _ => spared_generators hd hmapper hb) s

theorem covers_act (l : Loop) (flt : Filter E) (ctx : Context W E) :
    (onContext (coverFrame m id missed)).Keeps
      (act syncDirection l (recordsOf (handled syncDirection mods) flt ctx)) := by
  refine Frame.keeps_ite (Frame.keeps_fail _) (Frame.keeps_ite (Frame.keeps_pure _) ?_)
  refine Frame.keeps_bind (Frame.keeps_attempt (keeps_lazyLoader fun g =>
    covers_generators h.keyed fun r hr => (records_keep h hmods r hr).2)) ?_
  rintro (e | _)
  · exact Frame.keeps_ite (Frame.keeps_fail _) (Frame.keeps_pure _)
  · exact Frame.keeps_pure _

variable (oldOrm : Option Nat) (known : ChangeSet E) (l : Loop)

theorem spared_readSide (dest : Dest) :
    (sparedFrame id missed m.entityName).Keeps
      (readSide env force (handled d mods) dest known) :=
  (sparedFrame id missed m.entityName).keeps_readSide h.keeps force
    (fun m' hm' => by
      obtain ⟨mod, hmod, hmem⟩ := mem_handled hmods hm'
      exact h.keeps.modules mod hmod m' hmem) dest known

theorem rel_innerTurn (hd : d.truth ≠ d.target) {s : Engine W E}
    (hsafe : ∀ ch t, readSide env force (handled d mods) d.target known s = (.returned ch, t) →
      Safe m id missed (handled d mods) t) :
    (sparedFrame id missed m.entityName).rel s
      (innerTurn env force d mods dryRun rows oldOrm known l s).2 := by
  let F := sparedFrame (W := W) (E := E) id missed m.entityName
  refine Frame.rel_bind (spared_readSide h force hmods known d.target s) fun ch t hread => ?_
  have hst := hsafe ch t hread
  split
  · exact Frame.keeps_bind (F.keeps_finish h.keeps _) (fun _ => Frame.keeps_pure _) t
  · refine Frame.rel_bind (F.keeps_chooseFilter rows (fun mod hmod =>
      h.keeps.modules mod (hmods hmod)) ch t) fun flt u hflt => ?_
    have hsu := safe_of_rel (Frame.rel_of_eq (covers_chooseFilter h hmods rows ch) hflt) hst
    refine Frame.rel_bind (F.keeps_compareSides d flt u) fun records v hrecords => ?_
    cases hrecords
    cases dryRun with
    | true =>
      exact Frame.keeps_bind (F.keeps_finish h.keeps _) (fun _ =>
        Frame.keeps_bind (Frame.keeps_reads _) fun _ => Frame.keeps_pure _) _
    | false => exact rel_act h hmods hd l flt hsu

theorem covers_innerTurn :
    (onContext (coverFrame m id missed)).Keeps
      (innerTurn env force syncDirection mods dryRun rows oldOrm known l) := by
  refine Frame.keeps_bind (covers_readSide_db h force (fun m' => mem_handled hmods) known)
    fun ch => ?_
  refine Frame.keeps_ite ?_ ?_
  · exact Frame.keeps_bind (covers_finish h _) fun _ => Frame.keeps_pure _
  · refine Frame.keeps_bind (covers_chooseFilter h hmods rows ch) fun flt => ?_
    refine Frame.keeps_bind_of (Frame.keeps_bind (Frame.keeps_reads _) fun _ =>
      Frame.keeps_bind (Frame.keeps_writes fun s => (onContext _).refl s) fun _ =>
        Frame.keeps_pure _) fun s records t hrecords => ?_
    cases hrecords
    cases dryRun with
    | true =>
      exact Frame.keeps_bind (covers_finish h _) (fun _ =>
        Frame.keeps_bind (Frame.keeps_reads _) fun _ => Frame.keeps_pure _) _
    | false => exact covers_act h hmods l flt s.ctx _

-- along what keeps the cover, nothing strikes where the cover holds
def pursuitFrame (m : Mapper W E) (id : String) (missed : W → Prop) (mappers : List (Mapper W E)) :
    Frame (Engine W E) where
  rel s t := (onContext (coverFrame m id missed)).rel s t ∧
    (Safe m id missed mappers s → (sparedFrame id missed m.entityName).rel s t)
  refl s := ⟨(onContext _).refl s, fun _ => (sparedFrame id missed m.entityName).refl s⟩
  trans h k := ⟨(onContext _).trans h.1 k.1, fun hs =>
    (sparedFrame id missed m.entityName).trans (h.2 hs) (k.2 (safe_of_rel h.1 hs))⟩

theorem pursued_innerTurn :
    (pursuitFrame m id missed (handled syncDirection mods)).Keeps
      (innerTurn env force syncDirection mods dryRun rows oldOrm known l) := by
  refine fun s => ⟨covers_innerTurn h force dryRun hmods rows oldOrm known l s, fun hs => ?_⟩
  refine rel_innerTurn h force dryRun hmods rows oldOrm known l (fun heq => by cases heq)
    fun ch t hread => ?_
  exact safe_of_rel (Frame.rel_of_eq
    (covers_readSide_db h force (fun m' => mem_handled hmods) known) hread) hs

theorem safe_of_readSide {mappers : List (Mapper W E)} (hsub : mappers ⊆ handled d mods)
    {s t : Engine W E} {ch : ChangeSet E}
    (hread : readSide env force mappers .cloud known s = (.returned ch, t)) :
    Safe m id missed mappers t := fun hm =>
  readSide_cloud_covers h force (fun _ hm' => mem_handled hmods (hsub hm')) hm known s ch t trivial
    hread

theorem spared_outerTurn_sync (fuel : Nat) :
    (sparedFrame id missed m.entityName).Keeps
      (outerTurn env force syncDirection mods dryRun rows oldOrm fuel l) := by
  let F := sparedFrame (W := W) (E := E) id missed m.entityName
  intro s
  refine Frame.rel_bind (spared_readSide h force hmods _ .cloud s) fun ch t hread => ?_
  refine F.trans ?_ (Frame.rel_after_bind (F := F.toFrame) F.keeps_afterInner t)
  have hpursued := Frame.keeps_doWhile
    (pursued_innerTurn h force dryRun hmods rows oldOrm ch) fuel { l with ranFullUpdate := false } t
  exact hpursued.2 (safe_of_readSide h force hmods _ (List.Subset.refl _) hread)

theorem spared_outerTurn_apply (fuel : Nat) :
    (sparedFrame id missed m.entityName).Keeps
      (outerTurn env force applyDirection mods dryRun rows oldOrm fuel l) := by
  let F := sparedFrame (W := W) (E := E) id missed m.entityName
  refine Frame.keeps_bind (spared_readSide h force hmods _ .db) fun ch => ?_
  refine Frame.keeps_bind (Frame.keeps_doWhile (fun l s => ?_) _ _) F.keeps_afterInner
  exact rel_innerTurn h force dryRun hmods rows oldOrm ch l (fun heq => by cases heq) fun _ _ hread =>
    safe_of_readSide h force hmods _ (List.Subset.refl _) hread

omit hmods in
theorem spared_reconcile (fuel : Nat)
    (houter : ∀ (oldOrm : Option Nat) (l : Loop), (sparedFrame id missed m.entityName).Keeps
      (outerTurn env force d mods dryRun rows oldOrm fuel l)) :
    (sparedFrame id missed m.entityName).Keeps (reconcile env force d mods dryRun rows fuel) := by
  let F := sparedFrame (W := W) (E := E) id missed m.entityName
  refine Frame.keeps_bind (Frame.keeps_reads _) fun oldOrm => ?_
  refine Frame.keeps_bind (F.keeps_onStore h.keeps.createConn) fun _ => ?_
  refine Frame.keeps_bind (F.keeps_modifyCtx fun _ => rfl) fun _ => ?_
  exact Frame.keeps_bind (Frame.keeps_doWhile (houter oldOrm) _ _) (F.keeps_afterOuter h.keeps _)

omit hmods in
theorem spared_phases : (sparedFrame id missed m.entityName).PhasesKeep env where
  apply fuel force dryRun _ hmods rows := spared_reconcile h force dryRun rows fuel
    fun oldOrm l => spared_outerTurn_apply h force dryRun hmods rows oldOrm l fuel
  sync fuel force dryRun _ hmods := spared_reconcile h force dryRun [] fuel
    fun oldOrm l => spared_outerTurn_sync h force dryRun hmods [] oldOrm l fuel
  query _ := spared_emit fun hstrike => hstrike

end Rounds

section Calls

variable {W E : Type} [JsRecord E] {env : Env W E} {m : Mapper W E} {id : String}
  {missed : W → Prop} (h : Watched m id missed env)

omit [JsRecord E] in
theorem missed_logKeeps (cfg : Config) :
    LogKeeps (sparedFrame (E := E) id missed m.entityName).store cfg :=
  ⟨fun _ _ _ _ _ _ hm => hm, fun _ _ _ _ hm => hm, fun _ _ _ hm => hm⟩

omit [JsRecord E] in
theorem spared_same {f : Engine W E → Engine W E} (htrace : ∀ s, (f s).trace = s.trace)
    (hstore : ∀ s, (f s).ctx.store = s.ctx.store) :
    (sparedFrame id missed m.entityName).Keeps (Prog.writes f : Prog (Engine W E) Thrown Unit) := by
  intro s
  change (_ → missed (f s).ctx.store.world) ∧
    (_ → Spared m.entityName id (f s).trace ∨ missed (f s).ctx.store.world)
  rw [htrace, hstore]
  exact ⟨fun hm => hm, .inl⟩

include h

theorem spared_insertLog (orm : Option Nat) (t : AuditLogChangeType) (tx msg : Option String) :
    (sparedFrame id missed m.entityName).Keeps (insertLog env orm t tx msg) := by
  let F := sparedFrame (W := W) (E := E) id missed m.entityName
  refine Frame.keeps_bind (F.keeps_newDate h.keeps) fun ts => ?_
  refine Frame.keeps_bind (F.keeps_saveThrough h.keeps orm fun st hm => hm) fun _ => ?_
  exact Frame.keeps_pure _

theorem spared_opening (c : CommitCall) :
    (sparedFrame id missed m.entityName).Keeps (c.opening env) := by
  let F := sparedFrame (W := W) (E := E) id missed m.entityName
  have htake : F.Keeps (takeOrm env c.force c.ormOpt) := by
    refine Frame.keeps_bind (F.keeps_chooseOrm h.keeps _) fun _ => ?_
    exact Frame.keeps_bind (spared_same (fun _ => rfl) fun _ => rfl) fun _ =>
      F.keeps_failIfCommitRunning h.keeps _
  refine Frame.keeps_bind htake fun _ => ?_
  refine Frame.keeps_bind (F.keeps_readLog h.keeps _) fun tx => ?_
  refine Frame.keeps_bind (spared_same (fun _ => rfl) fun _ => rfl) fun _ => ?_
  refine Frame.keeps_bind (Frame.keeps_reads _) fun orm => ?_
  refine Frame.keeps_bind (F.keeps_insertCommitMessage h.keeps (missed_logKeeps _) _ _ _) fun _ => ?_
  refine Frame.keeps_bind (spared_insertLog h _ _ _ _) fun row => ?_
  refine Frame.keeps_bind (F.keeps_modifyCtx fun c => ?_) fun _ => Frame.keeps_pure _
  split <;> rfl

theorem spared_closing (c : CommitCall) (parentOrm : Option Nat) :
    (sparedFrame id missed m.entityName).Keeps
      (closing env c.startType c.endType c.ormOpt parentOrm) := by
  let F := sparedFrame (W := W) (E := E) id missed m.entityName
  refine Frame.keeps_bind (Frame.keeps_reads _) fun p => ?_
  refine Frame.keeps_bind (F.keeps_recordsSince h.keeps (missed_logKeeps _) _ _ _) fun _ => ?_
  refine Frame.keeps_bind (spared_insertLog h _ _ _ _) fun _ => ?_
  refine Frame.keeps_bind ?_ fun _ => F.keeps_modifyCtx fun ctx => by split <;> rfl
  exact Frame.keeps_ite (Frame.keeps_pure _)
    (Frame.keeps_detached (F.keeps_onStore (h.keeps.dropConn _)))

theorem spared_run (fuel : Nat) (c : CommitCall) :
    (sparedFrame id missed m.entityName).Keeps (c.run env fuel) := by
  let F := sparedFrame (W := W) (E := E) id missed m.entityName
  intro s
  rw [run_apply]
  refine Frame.rel_bind (F.keeps_entry h.keeps _ s) fun start t hentry => ?_
  obtain ⟨v, imported⟩ := start
  obtain rfl : imported = env.allModules := entry_returned hentry
  refine Frame.keeps_bind (Frame.keeps_reads _) (fun parentOrm => ?_) t
  refine Frame.keeps_bind (spared_same (fun _ => rfl) fun _ => rfl) fun _ => ?_
  refine Frame.keeps_lastly (F.keeps_caught h.keeps (missed_logKeeps _) fun u => ?_)
    (spared_closing h c parentOrm)
  rw [body_apply]
  exact Frame.keeps_bind (spared_opening h c) (fun row =>
    keeps_rest fuel F h.keeps (missed_logKeeps _) (spared_phases h) c v row) u

theorem run_spares (fuel : Nat) (c : CommitCall) {s : Engine W E}
    (hs : Spared m.entityName id s.trace)
    (hmissed : ¬ missed (c.run env fuel s).2.ctx.store.world) :
    Spared m.entityName id (c.run env fuel s).2.trace :=
  ((spared_run h fuel c s).2 hs).resolve_right hmissed

end Calls

end Iasql
