import Iasql.Commit

namespace Iasql

open Program Prog

section Frames

variable {W E : Type}

def ctxFrame (R : Frame (Store W)) : Frame (Context W E) where
  rel c d := R.rel c.store d.store
  refl c := R.refl c.store
  trans := R.trans

-- what moves the trace by observations only, keeps the connection and moves the store along its
-- frame
structure StoreFrame (W E : Type) extends Frame (Engine W E) where
  store : Frame (Store W)
  same : ∀ {s t : Engine W E}, s.trace = t.trace → s.orm = t.orm →
    store.rel s.ctx.store t.ctx.store → rel s t
  observes : ∀ (s : Engine W E) {ev : Event W E}, ev.isWrite = false →
    rel s { s with trace := s.trace ++ [ev] }

structure MapperKeeps (R : Frame (Store W)) (m : Mapper W E) : Prop where
  create : ∀ dest e, (ctxFrame R).Keeps ((m.crud dest).createFn e)
  read : ∀ dest, (ctxFrame R).Keeps (m.crud dest).readFn
  update : ∀ dest e, (ctxFrame R).Keeps ((m.crud dest).updateFn e)
  delete : ∀ dest e, (ctxFrame R).Keeps ((m.crud dest).deleteFn e)
  changed : ∀ row, R.Keeps (m.changedEntities row)

def ModulesKeep (R : Frame (Store W)) (mods : List (Module W E)) : Prop :=
  ∀ mod ∈ mods, ∀ m ∈ mod.mappers, MapperKeeps R m

structure EnvKeeps (R : Frame (Store W)) (env : Env W E) : Prop where
  newDate : ∀ st, R.rel st (env.newDate st).2
  createConn : R.Keeps env.createConn
  dropConn : ∀ orm, R.Keeps (env.dropConn orm)
  roundTrip : R.Keeps env.roundTrip
  upgrading : R.Keeps env.upgrading
  versionString : R.Keeps env.versionString
  recreateEntities : ∀ rows, R.Keeps (env.recreateEntities rows)
  query : ∀ q, R.Keeps (env.query q)
  modules : ModulesKeep R env.allModules

-- the log is written to by everything but the markers of a commit
structure LogKeeps (R : Frame (Store W)) (cfg : Config) : Prop where
  insert : ∀ (st : Store W) {t : AuditLogChangeType}, t.isCommitMarker = false → ∀ ts tx msg,
    R.rel st { st with auditLog := saveLog st.auditLog (newLog cfg t ts tx msg) }
  error : ∀ (st : Store W) ts err tx,
    R.rel st { st with auditLog := saveLog st.auditLog (newErrorLog cfg ts err tx) }
  associate : ∀ (st : Store W) rows tx,
    R.rel st { st with auditLog := associateTransaction st.auditLog rows tx }

end Frames

section Mappers

variable {W E : Type} [JsRecord E] {R : Frame (Store W)} {m : Mapper W E}

omit [JsRecord E] in
theorem setMemo_store (ctx : Context W E) (memo : Memo E) (dest : Dest) :
    (ctx.setMemo memo dest).store = ctx.store := by cases dest <;> rfl

omit [JsRecord E] in
theorem putEntries_store (ctx : Context W E) (dest : Dest) (name : String)
    (entries : List (String × E)) : (ctx.putEntries dest name entries).store = ctx.store :=
  setMemo_store ctx _ dest

theorem memoOne_store (dest : Dest) (ctx : Context W E) (e : E) :
    (m.memoOne dest ctx e).store = ctx.store := by
  unfold Mapper.memoOne
  simp only
  split <;> exact putEntries_store ctx dest _ _

theorem memo_store (dest : Dest) (ctx : Context W E) (es : List E) :
    (m.memo dest ctx es).store = ctx.store := by
  induction es generalizing ctx with
  | nil => rfl
  | cons e es ih => exact (ih (m.memoOne dest ctx e)).trans (memoOne_store dest ctx e)

omit [JsRecord E] in
theorem unmemo_store (dest : Dest) (ctx : Context W E) (e : E) :
    (m.unmemo dest ctx e).store = ctx.store := putEntries_store ctx dest _ _

omit [JsRecord E] in
theorem overwrite_store (dest : Dest) (e : E) (f : E → E) (ctx : Context W E) :
    (overwrite m dest e f ctx).store = ctx.store := putEntries_store ctx dest _ _

omit [JsRecord E] in
theorem keeps_memoWrite {f : Context W E → Context W E} (h : ∀ c, (f c).store = c.store) :
    (ctxFrame R).Keeps (Prog.writes f : Prog (Context W E) Thrown Unit) := by
  intro c
  change R.rel c.store (f c).store
  rw [h]
  exact R.refl _

omit [JsRecord E] in
theorem keeps_rethrow {α : Type} (dest : Dest) (verb : String) (err : Thrown) :
    (ctxFrame R).Keeps (m.rethrow dest verb err : Prog (Context W E) Thrown α) := by
  cases err <;> exact Frame.keeps_fail _

namespace MapperKeeps

variable (h : MapperKeeps R m)

include h

theorem keeps_create (dest : Dest) (e : E) : (ctxFrame R).Keeps (m.create dest e) := by
  refine Frame.keeps_bind (keeps_memoWrite fun c => memo_store dest c _) fun _ => ?_
  refine Frame.keeps_bind (Frame.keeps_attempt (h.create dest e)) ?_
  rintro (err | out)
  · exact Frame.keeps_bind (keeps_memoWrite fun c => unmemo_store dest c _) fun _ =>
      keeps_rethrow dest _ err
  · exact Frame.keeps_bind (keeps_memoWrite fun c => memo_store dest c _) fun _ =>
      Frame.keeps_pure _

theorem keeps_read (dest : Dest) : (ctxFrame R).Keeps (m.read dest) := by
  refine Frame.keeps_bind (Frame.keeps_attempt (h.read dest)) ?_
  rintro (err | out)
  · exact keeps_rethrow dest _ err
  · exact keeps_memoWrite fun c => memo_store dest c _

theorem keeps_update (dest : Dest) (e : E) : (ctxFrame R).Keeps (m.update dest e) := by
  refine Frame.keeps_bind (Frame.keeps_attempt (h.update dest e)) ?_
  rintro (err | out)
  · exact keeps_rethrow dest _ err
  · exact Frame.keeps_bind (keeps_memoWrite fun c => memo_store dest c _) fun _ =>
      Frame.keeps_pure _

omit [JsRecord E] in
theorem keeps_delete (dest : Dest) (e : E) : (ctxFrame R).Keeps (m.delete dest e) := by
  refine Frame.keeps_bind (Frame.keeps_attempt (h.delete dest e)) ?_
  rintro (err | _)
  · exact keeps_rethrow dest _ err
  · exact keeps_memoWrite fun c => unmemo_store dest c _

end MapperKeeps

end Mappers

section Changes

variable {W E : Type} {R : Frame (Store W)}

theorem keeps_changesOfRecord (row : IasqlAuditLog) {ms : List (Mapper W E)}
    (h : ∀ m ∈ ms, MapperKeeps R m) (changes : ChangeSet E) :
    R.Keeps (changesOfRecord row ms changes) := by
  induction ms generalizing changes with
  | nil => exact Frame.keeps_pure _
  | cons m ms ih =>
    exact Frame.keeps_bind ((h m (by simp)).changed row) fun _ =>
      ih (fun x hx => h x (by simp [hx])) _

theorem entityMappers_subset (mod : Module W E) : entityMappers mod ⊆ mod.mappers := by
  intro m hm
  obtain ⟨⟨name, _⟩, hmem, rfl⟩ := List.mem_map.mp hm
  exact (OrderedMap.lastWith_key ((OrderedMap.mem_ofList _ _).mp hmem)).2

theorem keeps_changesOfRecords {index : String → Option (Module W E)}
    (h : ∀ table mod, index table = some mod → ∀ m ∈ mod.mappers, MapperKeeps R m)
    (rows : List IasqlAuditLog) (changes : ChangeSet E) :
    R.Keeps (changesOfRecords index rows changes) := by
  induction rows generalizing changes with
  | nil => exact Frame.keeps_pure _
  | cons row rows ih =>
    rw [changesOfRecords]
    split
    · exact Frame.keeps_fail _
    · next mod hmod =>
      exact Frame.keeps_bind (keeps_changesOfRecord row
        (fun m hm => h _ mod hmod m (entityMappers_subset mod hm)) changes) ih

theorem indexModsByTable_mem {mods : List (Module W E)} {table : String} {mod : Module W E}
    (h : indexModsByTable mods table = some mod) : mod ∈ mods ∧ table ∈ mod.tables := by
  simpa using List.mem_filter.mp (List.mem_of_getLast? h)

theorem keeps_getChangesByEntity (rows : List IasqlAuditLog) {mods : List (Module W E)}
    (h : ModulesKeep R mods) : R.Keeps (getChangesByEntity rows (indexModsByTable mods)) := by
  exact keeps_changesOfRecords (fun table mod hmod => h mod (indexModsByTable_mem hmod).1) rows _

end Changes

section Modules

variable {W E : Type} {env : Env W E} {force : Bool}

theorem getImportedModules_returned {v : String} {s t : Engine W E} {mods : List (Module W E)}
    (h : getImportedModules env force v s = (.returned mods, t)) : mods = env.allModules := by
  unfold getImportedModules at h
  split at h
  · cases h
  · obtain ⟨upgrading, u, -, hrest⟩ := bind_returned_inv h
    change (if _ then _ else _ : Prog (Engine W E) Thrown _) u = _ at hrest
    split at hrest
    · cases hrest
    · cases hrest
      rfl

theorem entry_returned {s t : Engine W E} {start : String × List (Module W E)}
    (h : entry env force s = (.returned start, t)) : start.2 = env.allModules := by
  obtain ⟨_, s₁, -, h⟩ := bind_returned_inv h
  obtain ⟨v, s₂, -, h⟩ := bind_returned_inv h
  obtain ⟨mods, s₃, hmods, h⟩ := bind_returned_inv h
  cases h
  exact getImportedModules_returned hmods

theorem present_returned {mods : List (Option (Module W E))} {s t : Engine W E}
    {ms : List (Module W E)} (h : present mods s = (.returned ms, t)) : mods = ms.map some := by
  induction mods generalizing s ms with
  | nil =>
    cases h
    rfl
  | cons o mods ih =>
    cases o with
    | none => cases h
    | some m =>
      obtain ⟨rest, u, hu, hpure⟩ := bind_returned_inv h
      cases hpure
      rw [ih hu]
      rfl

theorem mem_getModulesWithChanges {imported : List (Module W E)} {names tables : List String}
    {v : String} {p : Module W E → Bool} {m : Module W E}
    (h : some m ∈ getModulesWithChanges imported (imported.filter p) names tables v) :
    m ∈ imported := by
  rcases List.mem_append.mp h with h | h
  · obtain ⟨m', hm', heq⟩ := List.mem_map.mp h
    obtain rfl := Option.some.inj heq
    exact (List.mem_filter.mp (List.mem_filter.mp hm').1).1
  · obtain ⟨name, -, hfind⟩ := List.mem_map.mp h
    exact List.mem_of_find?_eq_some hfind

theorem sorted_returned {mods : List (Option (Module W E))} {names : List String}
    {s t : Engine W E} {out : List (Module W E)} (h : sorted mods names s = (.returned out, t)) :
    ∀ m ∈ out, some m ∈ mods := mem_of_sortLoop (sorted_some h)

end Modules

namespace StoreFrame

section Primitives

variable {W E α : Type} (F : StoreFrame W E)

theorem keeps_onCtx {p : Prog (Context W E) Thrown α} (h : (ctxFrame F.store).Keeps p) :
    F.Keeps (onCtx p) := fun s => F.same rfl rfl (h s.ctx)

theorem keeps_onStore {p : Prog (Store W) Thrown α} (h : F.store.Keeps p) : F.Keeps (onStore p) :=
  F.keeps_onCtx fun c => h c.store

theorem keeps_modifyCtx {f : Context W E → Context W E} (h : ∀ c, (f c).store = c.store) :
    F.Keeps (modifyCtx f) := by
  intro s
  refine F.same rfl rfl ?_
  change F.store.rel s.ctx.store (f s.ctx).store
  rw [h]
  exact F.store.refl _

theorem keeps_emit {ev : Event W E} (h : ev.isWrite = false) : F.Keeps (emit ev) :=
  fun s => F.observes s h

theorem keeps_plan (g : Engine W E → CrupdeOperations) :
    F.Keeps (Prog.writes fun s => { s with crupdes := g s } : Prog (Engine W E) Thrown Unit) :=
  fun _ => F.same rfl rfl (F.store.refl _)

variable {env : Env W E} (hE : EnvKeeps F.store env)

include hE

theorem keeps_readLog (f : List IasqlAuditLog → α) : F.Keeps (readLog env f) :=
  Frame.keeps_bind (F.keeps_onStore hE.roundTrip) fun _ => Frame.keeps_reads _

theorem keeps_writeLog {f : List IasqlAuditLog → List IasqlAuditLog}
    (hf : ∀ st : Store W, F.store.rel st { st with auditLog := f st.auditLog }) :
    F.Keeps (writeLog env f) :=
  Frame.keeps_bind (F.keeps_onStore hE.roundTrip) fun _ s => F.same rfl rfl (hf s.ctx.store)

theorem keeps_newDate : F.Keeps (newDate env) := F.keeps_onStore hE.newDate

end Primitives

section Setup

variable {W E : Type} (F : StoreFrame W E) {env : Env W E} (hE : EnvKeeps F.store env)
  (force : Bool)

include hE

theorem keeps_throwIfUpgrading : F.Keeps (throwIfUpgrading env force) := by
  refine Frame.keeps_bind (F.keeps_onStore hE.upgrading) fun _ => ?_
  exact Frame.keeps_ite (Frame.keeps_fail _) (Frame.keeps_pure _)

theorem keeps_getImportedModules (versionString : String) :
    F.Keeps (getImportedModules env force versionString) := by
  refine Frame.keeps_ite (Frame.keeps_fail _)
    (Frame.keeps_bind (F.keeps_onStore hE.upgrading) fun _ => ?_)
  exact Frame.keeps_ite (Frame.keeps_fail _) (Frame.keeps_pure _)

theorem keeps_findInstalledModules : F.Keeps (findInstalledModules env) :=
  Frame.keeps_bind (F.keeps_onStore hE.roundTrip) fun _ => Frame.keeps_reads _

omit hE in
theorem keeps_present (mods : List (Option (Module W E))) : F.Keeps (present mods) := by
  induction mods with
  | nil => exact Frame.keeps_pure _
  | cons m mods ih =>
    cases m with
    | none => exact Frame.keeps_fail _
    | some m => exact Frame.keeps_bind ih fun _ => Frame.keeps_pure _

theorem keeps_getChangesAfterCommitStartedByEntity :
    F.Keeps (getChangesAfterCommitStartedByEntity env force) := by
  refine Frame.keeps_bind (Frame.keeps_reads _) fun _ => ?_
  refine Frame.keeps_bind (F.keeps_readLog hE _) fun _ => ?_
  refine Frame.keeps_bind (F.keeps_onStore hE.versionString) fun _ => ?_
  refine Frame.keeps_bind_of (F.keeps_getImportedModules hE force _) fun s mods t himported => ?_
  obtain rfl := getImportedModules_returned himported
  refine Frame.keeps_bind (F.keeps_findInstalledModules hE) (fun names => ?_) t
  refine Frame.keeps_bind_of (F.keeps_present _) fun s mods t hpresent => ?_
  refine F.keeps_onStore (keeps_getChangesByEntity _ fun mod hmod => ?_) t
  have hmem : some mod ∈ mods.map some := List.mem_map_of_mem hmod
  rw [← present_returned hpresent] at hmem
  exact hE.modules mod (mem_getModulesWithChanges hmem)

end Setup

section Steps

variable {W E : Type} (F : StoreFrame W E) {env : Env W E} (hE : EnvKeeps F.store env)

theorem keeps_flush (dest : Dest) : F.Keeps (flush dest : Prog (Engine W E) Thrown Unit) :=
  Frame.keeps_bind (F.keeps_emit rfl) fun _ => F.keeps_modifyCtx fun c => setMemo_store c _ dest

theorem keeps_chooseFilter (rows : List IasqlAuditLog) {mods : List (Module W E)}
    (h : ModulesKeep F.store mods) (changes : ChangeSet E) :
    F.Keeps (chooseFilter rows (indexModsByTable mods) changes) := by
  refine Frame.keeps_ite (Frame.keeps_pure _) ?_
  refine Frame.keeps_bind (F.keeps_onStore (keeps_getChangesByEntity rows h)) fun _ => ?_
  exact Frame.keeps_bind (F.keeps_emit rfl) fun _ => Frame.keeps_pure _

theorem keeps_afterInner (left : Loop ⊕ Plan) : F.Keeps (afterInner left) := by
  rcases left with l | plan <;> exact Frame.keeps_pure _

include hE

theorem keeps_finish (oldOrm : Option Nat) : F.Keeps (finish env oldOrm) :=
  Frame.keeps_bind (Frame.keeps_reads _) fun orm =>
    Frame.keeps_bind (F.keeps_onStore (hE.dropConn orm)) fun _ => F.keeps_modifyCtx fun _ => rfl

theorem keeps_afterOuter (oldOrm : Option Nat) (left : Loop ⊕ Plan) :
    F.Keeps (afterOuter env oldOrm left) := by
  rcases left with l | plan
  · exact Frame.keeps_bind (Frame.keeps_reads _) fun _ =>
      Frame.keeps_bind (F.keeps_finish hE _) fun _ => Frame.keeps_pure _
  · exact Frame.keeps_pure _

end Steps

section Loops

variable {W E : Type} [JsRecord E] (F : StoreFrame W E) {env : Env W E}
  (hE : EnvKeeps F.store env) (force : Bool) (d : Direction W E) {mappers : List (Mapper W E)}
  (hm : ∀ m ∈ mappers, MapperKeeps F.store m) {relevantModules : List (Module W E)}
  (hmods : ModulesKeep F.store relevantModules) (changesToCommit : List IasqlAuditLog)

theorem keeps_readOne (dest : Dest) {m : Mapper W E} (h : MapperKeeps F.store m) :
    F.Keeps (readOne dest m) :=
  Frame.keeps_bind (F.keeps_onCtx (h.keeps_read dest)) fun _ => F.keeps_emit rfl

include hm in
theorem keeps_readAll (dest : Dest) : F.Keeps (lazyLoader (mappers.map (readOne dest))) := by
  refine keeps_lazyLoader fun g hg => ?_
  obtain ⟨m, hmem, rfl⟩ := List.mem_map.mp hg
  exact F.keeps_readOne dest (hm m hmem)

include hE hm in
theorem keeps_readSide (dest : Dest) (known : ChangeSet E) :
    F.Keeps (readSide env force mappers dest known) := by
  refine Frame.keeps_bind (F.keeps_flush dest) fun _ => ?_
  refine Frame.keeps_bind (F.keeps_readAll hm dest) fun _ => ?_
  cases dest with
  | db =>
    refine Frame.keeps_bind (F.keeps_getChangesAfterCommitStartedByEntity hE force) fun _ => ?_
    exact Frame.keeps_bind (F.keeps_emit rfl) fun _ => Frame.keeps_pure _
  | cloud => exact Frame.keeps_pure _

theorem keeps_compareSides (flt : Filter E) : F.Keeps (compareSides d mappers flt) :=
  Frame.keeps_bind (Frame.keeps_reads _) fun _ =>
    Frame.keeps_bind (F.keeps_plan _) fun _ => Frame.keeps_pure _

theorem keeps_act {l : Loop} {records : List (DiffRecord W E)}
    (h : ∀ g ∈ generators d records, F.Keeps g) : F.Keeps (act d l records) := by
  refine Frame.keeps_ite (Frame.keeps_fail _) (Frame.keeps_ite (Frame.keeps_pure _) ?_)
  refine Frame.keeps_bind (Frame.keeps_attempt (keeps_lazyLoader h)) ?_
  rintro (e | _)
  · exact Frame.keeps_ite (Frame.keeps_fail _) (Frame.keeps_pure _)
  · exact Frame.keeps_pure _

omit [JsRecord E] in
include hmods in
theorem handled_keeps : ∀ m ∈ handled d relevantModules, MapperKeeps F.store m := by
  intro m hm
  obtain ⟨mod, hmod, hmem⟩ := List.mem_flatMap.mp (List.mem_filter.mp hm).1
  exact hmods mod hmod m hmem

variable {dryRun : Bool}

include hE hmods

theorem keeps_innerTurn
    (h : dryRun = false → ∀ l flt ctx,
      F.Keeps (act d l (recordsOf (handled d relevantModules) flt ctx)))
    (oldOrm : Option Nat) (known : ChangeSet E) (l : Loop) :
    F.Keeps (innerTurn env force d relevantModules dryRun changesToCommit oldOrm known l) := by
  refine Frame.keeps_bind (F.keeps_readSide hE force (F.handled_keeps d hmods) _ _) fun _ => ?_
  refine Frame.keeps_ite ?_ ?_
  · exact Frame.keeps_bind (F.keeps_finish hE _) fun _ => Frame.keeps_pure _
  · refine Frame.keeps_bind (F.keeps_chooseFilter _ hmods _) fun flt => ?_
    refine Frame.keeps_bind_of (F.keeps_compareSides d _) fun s records t hrecords => ?_
    obtain rfl : recordsOf (handled d relevantModules) flt s.ctx = records := by
      cases hrecords
      rfl
    cases dryRun with
    | true =>
      exact Frame.keeps_bind (F.keeps_finish hE _) (fun _ =>
        Frame.keeps_bind (Frame.keeps_reads _) fun _ => Frame.keeps_pure _) t
    | false => exact h rfl l flt s.ctx t

theorem keeps_outerTurn
    (h : dryRun = false → ∀ l flt ctx,
      F.Keeps (act d l (recordsOf (handled d relevantModules) flt ctx)))
    (oldOrm : Option Nat) (fuel : Nat) (l : Loop) :
    F.Keeps (outerTurn env force d relevantModules dryRun changesToCommit oldOrm fuel l) := by
  refine Frame.keeps_bind (F.keeps_readSide hE force (F.handled_keeps d hmods) _ _) fun _ => ?_
  exact Frame.keeps_bind
    (Frame.keeps_doWhile (F.keeps_innerTurn hE force d hmods _ h oldOrm _) _ _) F.keeps_afterInner

theorem keeps_reconcile
    (h : dryRun = false → ∀ l flt ctx,
      F.Keeps (act d l (recordsOf (handled d relevantModules) flt ctx))) (fuel : Nat) :
    F.Keeps (reconcile env force d relevantModules dryRun changesToCommit fuel) := by
  refine Frame.keeps_bind (Frame.keeps_reads _) fun _ => ?_
  refine Frame.keeps_bind (F.keeps_onStore hE.createConn) fun _ => ?_
  refine Frame.keeps_bind (F.keeps_modifyCtx fun _ => rfl) fun _ => ?_
  exact Frame.keeps_bind (Frame.keeps_doWhile (F.keeps_outerTurn hE force d hmods _ h _ _) _ _)
    (F.keeps_afterOuter hE _)

end Loops

section Log

variable {W E : Type} (F : StoreFrame W E) {env : Env W E} (hE : EnvKeeps F.store env)

theorem keeps_sorted (mods : List (Option (Module W E))) (names : List String) :
    F.Keeps (sorted mods names) := by
  unfold sorted
  split
  · exact Frame.keeps_pure _
  · exact Frame.keeps_diverge

include hE

theorem keeps_entry (force : Bool) : F.Keeps (entry env force) := by
  refine Frame.keeps_bind (F.keeps_throwIfUpgrading hE force) fun _ => ?_
  refine Frame.keeps_bind (F.keeps_onStore hE.versionString) fun _ => ?_
  exact Frame.keeps_bind (F.keeps_getImportedModules hE force _) fun _ => Frame.keeps_pure _

theorem keeps_failIfCommitRunning (force : Bool) : F.Keeps (failIfCommitRunning env force) :=
  Frame.keeps_bind (F.keeps_readLog hE _) fun _ =>
    Frame.keeps_ite (Frame.keeps_fail _) (Frame.keeps_pure _)

theorem keeps_chooseOrm (ormOpt : Option Nat) : F.Keeps (chooseOrm env ormOpt) := by
  cases ormOpt with
  | some orm => exact Frame.keeps_pure _
  | none => exact F.keeps_onStore hE.createConn

theorem keeps_saveThrough (orm : Option Nat) {f : List IasqlAuditLog → List IasqlAuditLog}
    (hf : ∀ st : Store W, F.store.rel st { st with auditLog := f st.auditLog }) :
    F.Keeps (saveThrough env orm f) :=
  Frame.keeps_ite (F.keeps_writeLog hE hf) (Frame.keeps_pure _)

variable (hL : LogKeeps F.store env.cfg)

include hL

theorem keeps_insertLog (orm : Option Nat) {t : AuditLogChangeType}
    (ht : t.isCommitMarker = false) (tx msg : Option String) :
    F.Keeps (insertLog env orm t tx msg) :=
  Frame.keeps_bind (F.keeps_newDate hE) fun ts =>
    Frame.keeps_bind (F.keeps_saveThrough hE orm fun st => hL.insert st ht ts tx msg) fun _ =>
      Frame.keeps_pure _

theorem keeps_insertCommitMessage (orm : Option Nat) (tx msg : Option String) :
    F.Keeps (insertCommitMessage env orm tx msg) := by
  unfold insertCommitMessage
  split
  · exact Frame.keeps_bind (F.keeps_insertLog hE hL orm rfl _ _) fun _ => Frame.keeps_pure _
  · exact Frame.keeps_pure _

theorem keeps_insertErrorLog (orm : Option Nat) (err : String) (tx : Option String) :
    F.Keeps (insertErrorLog env orm err tx) :=
  Frame.keeps_bind (F.keeps_newDate hE) fun ts =>
    F.keeps_saveThrough hE orm fun st => hL.error st ts err tx

theorem keeps_recordsSince (orm : Option Nat) (t : AuditLogChangeType) (tx : Option String) :
    F.Keeps (recordsSince env orm t tx) := by
  refine F.keeps_saveThrough hE orm fun st => ?_
  unfold updateIasqlRecordsSince
  split
  · exact F.store.refl st
  · exact hL.associate st _ tx

theorem keeps_findChanges (start : IasqlAuditLog) : F.Keeps (findChanges env start) := by
  refine Frame.keeps_bind (F.keeps_readLog hE _) fun _ => ?_
  refine Frame.keeps_bind (F.keeps_readLog hE _) fun rows => ?_
  refine Frame.keeps_bind (Frame.keeps_reads _) fun s => ?_
  exact Frame.keeps_bind (F.keeps_saveThrough hE _ fun st => hL.associate st rows _) fun _ =>
    Frame.keeps_pure _

theorem keeps_rethrowLogged {α : Type} (tried : Except Thrown α) :
    F.Keeps (rethrowLogged env tried) := by
  rcases tried with e | a
  · exact Frame.keeps_bind (Frame.keeps_reads _) fun _ =>
      Frame.keeps_bind (F.keeps_insertErrorLog hE hL _ _ _) fun _ => Frame.keeps_fail _
  · exact Frame.keeps_pure _

theorem keeps_caught {α : Type} {body : Prog (Engine W E) Thrown α} (h : F.Keeps body) :
    F.Keeps (caught env body) :=
  Frame.keeps_bind (Frame.keeps_attempt h) (F.keeps_rethrowLogged hE hL)

theorem keeps_closeRevert (tx : Option String) : F.Keeps (closeRevert env tx) := by
  refine Frame.keeps_bind (Frame.keeps_reads _) fun _ => ?_
  refine Frame.keeps_bind (F.keeps_recordsSince hE hL _ _ _) fun _ => ?_
  exact Frame.keeps_bind (F.keeps_insertLog hE hL _ rfl _ _) fun _ => Frame.keeps_pure _

omit hL in
theorem keeps_findInverseQueries (mods : List (Module W E)) :
    F.Keeps (findInverseQueries env mods) := by
  refine Frame.keeps_bind (F.keeps_readLog hE _) ?_
  rintro (_ | rows)
  · exact Frame.keeps_fail _
  · refine Frame.keeps_bind (F.keeps_onStore (hE.recreateEntities rows)) fun _ => ?_
    refine Frame.keeps_ite ?_ (Frame.keeps_fail _)
    split
    · exact Frame.keeps_pure _
    · exact Frame.keeps_diverge

end Log

section Phases

variable {W E : Type} [JsRecord E] (F : StoreFrame W E) {env : Env W E}
  (hE : EnvKeeps F.store env) (hL : LogKeeps F.store env.cfg) (hev : ∀ ev, F.Keeps (emit ev))
  (d : Direction W E)

include hev in
theorem keeps_generators {mappers : List (Mapper W E)} (hm : ∀ m ∈ mappers, MapperKeeps F.store m)
    {flt : Filter E} {ctx : Context W E} {g : Prog (Engine W E) Thrown Unit}
    (hg : g ∈ generators d (recordsOf mappers flt ctx)) : F.Keeps g := by
  have hrecord : ∀ r ∈ recordsOf mappers flt ctx, MapperKeeps F.store r.mapper := by
    intro r hr
    obtain ⟨m, hmem, rfl⟩ := List.mem_map.mp hr
    exact hm m hmem
  rcases List.mem_append.mp hg with hg | hg
  · obtain ⟨r, hr, hg⟩ := List.mem_flatMap.mp hg
    rcases List.mem_append.mp hg with hg | hg
    · obtain ⟨e, -, rfl⟩ := List.mem_map.mp hg
      exact Frame.keeps_bind (hev _) fun _ =>
        Frame.keeps_bind (F.keeps_onCtx ((hrecord r hr).keeps_create _ _)) fun _ =>
          F.keeps_modifyCtx fun c => overwrite_store _ _ _ c
    · obtain ⟨ec, -, rfl⟩ := List.mem_map.mp hg
      exact Frame.keeps_bind (F.keeps_modifyCtx fun c => overwrite_store _ _ _ c) fun _ =>
        Frame.keeps_bind (hev _) fun _ =>
          Frame.keeps_bind (F.keeps_onCtx ((hrecord r hr).keeps_update _ _)) fun _ =>
            F.keeps_modifyCtx fun c => overwrite_store _ _ _ c
  · obtain ⟨r, hr, hg⟩ := List.mem_flatMap.mp hg
    obtain ⟨e, -, rfl⟩ := List.mem_map.mp hg
    exact Frame.keeps_bind (hev _) fun _ =>
      F.keeps_onCtx ((hrecord r (List.mem_reverse.mp hr)).keeps_delete _ _)

include hE hev in
theorem keeps_whole (fuel : Nat) (force dryRun : Bool) {mods : List (Module W E)}
    (hmods : ModulesKeep F.store mods) (rows : List IasqlAuditLog) :
    F.Keeps (reconcile env force d mods dryRun rows fuel) :=
  F.keeps_reconcile hE force d hmods rows
    (fun _ _ _ _ => F.keeps_act d fun _ => F.keeps_generators hev d (F.handled_keeps d hmods)) fuel

structure PhasesKeep (F : StoreFrame W E) (env : Env W E) : Prop where
  apply : ∀ (fuel : Nat) (force dryRun : Bool) {mods : List (Module W E)},
    mods ⊆ env.allModules → ∀ rows, F.Keeps (apply env fuel mods force dryRun rows)
  sync : ∀ (fuel : Nat) (force dryRun : Bool) {mods : List (Module W E)},
    mods ⊆ env.allModules → F.Keeps (sync env fuel mods force dryRun)
  query : ∀ q, F.Keeps (emit (.inverseQuery q))

variable (fuel : Nat) (force dryRun : Bool) {mods : List (Module W E)}
  (hmods : mods ⊆ env.allModules)

include hE in
omit [JsRecord E] in
theorem modulesKeep_of_subset (h : mods ⊆ env.allModules) : ModulesKeep F.store mods :=
  fun mod hmod => hE.modules mod (h hmod)

include hE hev in
theorem phasesKeep_of_emit : F.PhasesKeep env where
  apply fuel force _ _ hmods rows :=
    F.keeps_whole hE hev _ fuel force _ (F.modulesKeep_of_subset hE hmods) rows
  sync fuel force _ _ hmods :=
    F.keeps_whole hE hev _ fuel force _ (F.modulesKeep_of_subset hE hmods) []
  query q := hev (.inverseQuery q)

variable (hP : F.PhasesKeep env)

include hE hP hmods

theorem keeps_applyInverseQueries (queries : List Statement) :
    F.Keeps (applyInverseQueries env fuel queries mods) := by
  refine Frame.keeps_bind (Frame.keeps_each fun q _ => ?_) fun _ =>
    Frame.keeps_bind (hP.apply _ _ _ hmods _) fun _ => Frame.keeps_pure _
  exact Frame.keeps_bind (hP.query q) fun _ =>
    Frame.keeps_bind (Frame.keeps_attempt (F.keeps_onStore (hE.query q))) fun _ =>
      Frame.keeps_pure _

include hL

theorem keeps_revert (tx : Option String) : F.Keeps (revert env fuel mods tx) := by
  refine Frame.keeps_bind (Frame.keeps_reads _) fun _ => ?_
  refine Frame.keeps_bind (F.keeps_insertLog hE hL _ rfl _ _) fun _ => ?_
  exact Frame.keeps_lastly (Frame.keeps_bind (F.keeps_findInverseQueries hE _)
    (F.keeps_applyInverseQueries hE fuel hmods hP)) (F.keeps_closeRevert hE hL tx)

end Phases

section Commit

variable {W E : Type} [JsRecord E] (F : StoreFrame W E) {env : Env W E}
  (hE : EnvKeeps F.store env) (hL : LogKeeps F.store env.cfg) (hP : F.PhasesKeep env)
  (fuel : Nat) (force dryRun : Bool) {st : Setup W E}
  (hchanged : st.modulesWithChangesSorted ⊆ env.allModules)
  (hinstalled : st.installedModulesSorted ⊆ env.allModules)

omit [JsRecord E] in
theorem keeps_conclude (syncRes : Except Thrown Plan) (revertErr applyErr : Option Thrown) :
    F.Keeps (conclude syncRes revertErr applyErr : Prog (Engine W E) Thrown Plan) := by
  refine Frame.keeps_ite ?_ ?_
  · split <;> exact Frame.keeps_fail _
  · cases syncRes <;> exact Frame.keeps_pure _

include hE hL hP hinstalled

theorem keeps_laterPhases (applyErr : Option Thrown) :
    F.Keeps (laterPhases env fuel st force dryRun applyErr) := by
  refine Frame.keeps_bind (Frame.keeps_ite (Frame.keeps_bind (Frame.keeps_attempt
    (hP.apply _ _ _ hinstalled _)) ?_) (Frame.keeps_pure _)) fun applyErr => ?_
  · rintro (e | _) <;> exact Frame.keeps_pure _
  refine Frame.keeps_bind (Frame.keeps_ite (Frame.keeps_bind (Frame.keeps_reads _) fun tx =>
    Frame.keeps_bind (Frame.keeps_attempt (F.keeps_revert hE hL fuel hinstalled hP tx)) ?_)
      (Frame.keeps_pure _)) fun revertErr => ?_
  · rintro (e | _) <;> exact Frame.keeps_pure _
  exact Frame.keeps_bind (Frame.keeps_attempt (hP.sync _ _ _ hinstalled))
    fun _ => F.keeps_conclude _ _ _

include hchanged

theorem keeps_phases : F.Keeps (phases env fuel st force dryRun) := by
  have hfirst : F.Keeps (applyChanged env fuel st force dryRun) :=
    Frame.keeps_ite (Frame.keeps_bind (hP.apply _ _ _ hchanged _) fun _ =>
      Frame.keeps_pure _) (Frame.keeps_pure _)
  refine Frame.keeps_bind (Frame.keeps_attempt hfirst) ?_
  rintro (e | _ | plan)
  · exact F.keeps_laterPhases hE hL hP fuel force dryRun hinstalled _
  · exact F.keeps_laterPhases hE hL hP fuel force dryRun hinstalled _
  · exact Frame.keeps_pure _

end Commit

end StoreFrame

end Iasql
