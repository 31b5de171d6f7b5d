import Iasql.StoreFrame

namespace Iasql

open Program Prog

structure TraceFrame (W E : Type) extends Frame (Engine W E) where
  same : ∀ {s t : Engine W E}, s.trace = t.trace → rel s t
  observes : ∀ (s : Engine W E) {ev : Event W E}, ev.isWrite = false →
    rel s { s with trace := s.trace ++ [ev] }

section Stores

variable {W E : Type}

def anyStore : Frame (Store W) where
  rel _ _ := True
  refl _ := trivial
  trans _ _ := trivial

-- a frame that reads the trace alone allows any write to the store
def TraceFrame.onStores (T : TraceFrame W E) : StoreFrame W E where
  toFrame := T.toFrame
  store := anyStore
  same h _ _ := T.same h
  observes := T.observes

theorem mapperKeeps_anyStore (m : Mapper W E) : MapperKeeps anyStore m :=
  ⟨fun _ _ _ => trivial, fun _ _ => trivial, fun _ _ _ => trivial, fun _ _ _ => trivial,
    fun _ _ => trivial⟩

theorem modulesKeep_anyStore (mods : List (Module W E)) : ModulesKeep anyStore mods :=
  fun _ _ m _ => mapperKeeps_anyStore m

theorem envKeeps_anyStore (env : Env W E) : EnvKeeps anyStore env where
  newDate _ := trivial
  createConn _ := trivial
  dropConn _ _ := trivial
  roundTrip _ := trivial
  upgrading _ := trivial
  versionString _ := trivial
  recreateEntities _ _ := trivial
  query _ _ := trivial
  modules := modulesKeep_anyStore _

theorem logKeeps_anyStore (cfg : Config) : LogKeeps (anyStore : Frame (Store W)) cfg :=
  ⟨fun _ _ _ _ _ _ => trivial, fun _ _ _ _ => trivial, fun _ _ _ => trivial⟩

end Stores

section Primitives

variable {W E α : Type} (T : TraceFrame W E)

theorem keeps_onCtx (p : Prog (Context W E) Thrown α) : T.Keeps (onCtx p) := fun _ => T.same rfl

theorem keeps_onStore (p : Prog (Store W) Thrown α) : T.Keeps (onStore p) := fun _ => T.same rfl

theorem keeps_modifyCtx (f : Context W E → Context W E) : T.Keeps (modifyCtx f) :=
  fun _ => T.same rfl

theorem keeps_readLog (env : Env W E) (f : List IasqlAuditLog → α) : T.Keeps (readLog env f) :=
  T.onStores.keeps_readLog (envKeeps_anyStore env) f

end Primitives

section Loops

variable {W E : Type} (T : TraceFrame W E) (env : Env W E) (force : Bool)

theorem keeps_findInstalledModules : T.Keeps (findInstalledModules env) :=
  T.onStores.keeps_findInstalledModules (envKeeps_anyStore env)

theorem keeps_getChangesAfterCommitStartedByEntity :
    T.Keeps (getChangesAfterCommitStartedByEntity env force) :=
  T.onStores.keeps_getChangesAfterCommitStartedByEntity (envKeeps_anyStore env) force

theorem keeps_finish (oldOrm : Option Nat) : T.Keeps (finish env oldOrm) :=
  T.onStores.keeps_finish (envKeeps_anyStore env) oldOrm

theorem keeps_afterInner (left : Loop ⊕ Plan) : T.Keeps (afterInner left) :=
  T.onStores.keeps_afterInner left

theorem keeps_afterOuter (oldOrm : Option Nat) (left : Loop ⊕ Plan) :
    T.Keeps (afterOuter env oldOrm left) :=
  T.onStores.keeps_afterOuter (envKeeps_anyStore env) oldOrm left

variable [JsRecord E] (d : Direction W E) (mappers : List (Mapper W E))
  (relevantModules : List (Module W E)) (changesToCommit : List IasqlAuditLog)

theorem keeps_readOne (dest : Dest) (m : Mapper W E) : T.Keeps (readOne dest m) :=
  T.onStores.keeps_readOne dest (mapperKeeps_anyStore m)

theorem keeps_readSide (dest : Dest) (known : ChangeSet E) :
    T.Keeps (readSide env force mappers dest known) :=
  T.onStores.keeps_readSide (envKeeps_anyStore env) force (fun m _ => mapperKeeps_anyStore m)
    dest known

omit [JsRecord E] in
theorem keeps_chooseFilter (changes : ChangeSet E) :
    T.Keeps (chooseFilter changesToCommit (indexModsByTable relevantModules) changes) :=
  T.onStores.keeps_chooseFilter changesToCommit (modulesKeep_anyStore relevantModules) changes

theorem keeps_compareSides (flt : Filter E) : T.Keeps (compareSides d mappers flt) :=
  T.onStores.keeps_compareSides d flt

theorem keeps_act {l : Loop} {records : List (DiffRecord W E)}
    (h : ∀ g ∈ generators d records, T.Keeps g) : T.Keeps (act d l records) :=
  T.onStores.keeps_act d h

variable {dryRun : Bool}

theorem keeps_innerTurn (h : dryRun = false → ∀ l records, T.Keeps (act d l records))
    (oldOrm : Option Nat) (known : ChangeSet E) (l : Loop) :
    T.Keeps (innerTurn env force d relevantModules dryRun changesToCommit oldOrm known l) :=
  T.onStores.keeps_innerTurn (envKeeps_anyStore env) force d
    (modulesKeep_anyStore relevantModules) changesToCommit (fun hdry l _ _ => h hdry l _) oldOrm
    known l

theorem keeps_outerTurn (h : dryRun = false → ∀ l records, T.Keeps (act d l records))
    (oldOrm : Option Nat) (fuel : Nat) (l : Loop) :
    T.Keeps (outerTurn env force d relevantModules dryRun changesToCommit oldOrm fuel l) :=
  T.onStores.keeps_outerTurn (envKeeps_anyStore env) force d
    (modulesKeep_anyStore relevantModules) changesToCommit (fun hdry l _ _ => h hdry l _) oldOrm
    fuel l

theorem keeps_reconcile (h : dryRun = false → ∀ l records, T.Keeps (act d l records))
    (fuel : Nat) : T.Keeps (reconcile env force d relevantModules dryRun changesToCommit fuel) :=
  T.onStores.keeps_reconcile (envKeeps_anyStore env) force d
    (modulesKeep_anyStore relevantModules) changesToCommit (fun hdry l _ _ => h hdry l _) fuel

end Loops

section Log

variable {W E : Type} (T : TraceFrame W E) (env : Env W E)

theorem keeps_saveThrough (orm : Option Nat) (f : List IasqlAuditLog → List IasqlAuditLog) :
    T.Keeps (saveThrough env orm f) :=
  T.onStores.keeps_saveThrough (envKeeps_anyStore env) orm fun _ => trivial

theorem keeps_insertLog (orm : Option Nat) (t : AuditLogChangeType) (tx msg : Option String) :
    T.Keeps (insertLog env orm t tx msg) :=
  Frame.keeps_bind (T.onStores.keeps_newDate (envKeeps_anyStore env)) fun _ =>
    Frame.keeps_bind (keeps_saveThrough T env orm _) fun _ => Frame.keeps_pure _

theorem keeps_failIfCommitRunning (force : Bool) : T.Keeps (failIfCommitRunning env force) :=
  T.onStores.keeps_failIfCommitRunning (envKeeps_anyStore env) force

theorem keeps_findInverseQueries (mods : List (Module W E)) :
    T.Keeps (findInverseQueries env mods) :=
  T.onStores.keeps_findInverseQueries (envKeeps_anyStore env) mods

theorem keeps_sorted (mods : List (Option (Module W E))) (names : List String) :
    T.Keeps (sorted mods names) := T.onStores.keeps_sorted mods names

theorem keeps_insertCommitMessage (orm : Option Nat) (tx msg : Option String) :
    T.Keeps (insertCommitMessage env orm tx msg) :=
  T.onStores.keeps_insertCommitMessage (envKeeps_anyStore env) (logKeeps_anyStore env.cfg) orm tx msg

theorem keeps_findChanges (start : IasqlAuditLog) : T.Keeps (findChanges env start) :=
  T.onStores.keeps_findChanges (envKeeps_anyStore env) (logKeeps_anyStore env.cfg) start

theorem keeps_entry (force : Bool) : T.Keeps (entry env force) :=
  T.onStores.keeps_entry (envKeeps_anyStore env) force

theorem keeps_rethrowLogged {α : Type} (tried : Except Thrown α) :
    T.Keeps (rethrowLogged env tried) :=
  T.onStores.keeps_rethrowLogged (envKeeps_anyStore env) (logKeeps_anyStore env.cfg) tried

theorem keeps_caught {α : Type} {body : Prog (Engine W E) Thrown α} (h : T.Keeps body) :
    T.Keeps (caught env body) :=
  T.onStores.keeps_caught (envKeeps_anyStore env) (logKeeps_anyStore env.cfg) h

theorem keeps_conclude (syncRes : Except Thrown Plan) (revertErr applyErr : Option Thrown) :
    T.Keeps (conclude syncRes revertErr applyErr : Prog (Engine W E) Thrown Plan) :=
  T.onStores.keeps_conclude syncRes revertErr applyErr

theorem keeps_closeRevert (tx : Option String) : T.Keeps (closeRevert env tx) :=
  T.onStores.keeps_closeRevert (envKeeps_anyStore env) (logKeeps_anyStore env.cfg) tx

-- from here on the markers of a commit are written and the connection changes: no store frame
-- allows that, a frame of the trace does
theorem keeps_beginLog (dryRun : Bool) (msg : Option String) :
    T.Keeps (beginLog env dryRun msg) := by
  refine Frame.keeps_bind (keeps_readLog T env _) fun _ => ?_
  refine Frame.keeps_bind (Frame.keeps_writes fun _ => T.same rfl) fun _ => ?_
  refine Frame.keeps_bind (Frame.keeps_reads _) fun _ => ?_
  refine Frame.keeps_bind (keeps_insertCommitMessage T env _ _ _) fun _ => ?_
  exact Frame.keeps_bind (keeps_insertLog T env _ _ _ _) fun _ =>
    Frame.keeps_bind (keeps_modifyCtx T _) fun _ => Frame.keeps_pure _

theorem keeps_setUp (v : String) (mods : List (Module W E)) (dryRun : Bool)
    (msg : Option String) : T.Keeps (setUp env v mods dryRun msg) := by
  refine Frame.keeps_bind (keeps_beginLog T env _ _) fun _ => ?_
  refine Frame.keeps_bind (keeps_findChanges T env _) fun _ => ?_
  refine Frame.keeps_bind (keeps_findInstalledModules T env) fun _ => ?_
  refine Frame.keeps_bind (keeps_sorted T _ _) fun _ => ?_
  exact Frame.keeps_bind (keeps_sorted T _ _) fun _ => Frame.keeps_pure _

theorem keeps_takeOrm (force : Bool) (ormOpt : Option Nat) :
    T.Keeps (takeOrm env force ormOpt) := by
  have hchoose : T.Keeps (chooseOrm env ormOpt) := by
    cases ormOpt with
    | some orm => exact Frame.keeps_pure _
    | none => exact keeps_onStore T _
  exact Frame.keeps_bind hchoose fun _ =>
    Frame.keeps_bind (Frame.keeps_writes fun _ => T.same rfl) fun _ =>
      keeps_failIfCommitRunning T env force

theorem keeps_startUp (dryRun force : Bool) (ormOpt : Option Nat) (msg : Option String)
    (v : String) (mods : List (Module W E)) :
    T.Keeps (startUp env dryRun force ormOpt msg v mods) :=
  Frame.keeps_bind (keeps_takeOrm T env _ _) fun _ => keeps_setUp T env _ _ _ _

theorem keeps_closing (startType endType : AuditLogChangeType) (ormOpt parentOrm : Option Nat) :
    T.Keeps (closing env startType endType ormOpt parentOrm) := by
  refine Frame.keeps_bind (Frame.keeps_reads _) fun _ => ?_
  refine Frame.keeps_bind (keeps_saveThrough T env _ _) fun _ => ?_
  refine Frame.keeps_bind (keeps_insertLog T env _ _ _ _) fun _ => ?_
  refine Frame.keeps_bind ?_ fun _ => keeps_modifyCtx T _
  exact Frame.keeps_ite (Frame.keeps_pure _) (Frame.keeps_detached (keeps_onStore T _))

theorem keeps_guarded {α : Type} {body : Prog (Engine W E) Thrown α} (h : T.Keeps body)
    (startType endType : AuditLogChangeType) (ormOpt : Option Nat) :
    T.Keeps (guarded env startType endType ormOpt body) :=
  Frame.keeps_bind (Frame.keeps_reads _) fun _ =>
    Frame.keeps_bind (Frame.keeps_writes fun _ => T.same rfl) fun _ =>
      Frame.keeps_lastly (keeps_caught T env h) (keeps_closing T env _ _ _ _)

end Log

section Commit

variable {W E : Type} [JsRecord E] (T : TraceFrame W E) (env : Env W E) (fuel : Nat)
  (force dryRun : Bool) (st : Setup W E)

theorem keeps_applyChanged (h : T.Keeps
      (apply env fuel st.modulesWithChangesSorted force dryRun st.changesToCommit)) :
    T.Keeps (applyChanged env fuel st force dryRun) :=
  Frame.keeps_ite (Frame.keeps_bind h fun _ => Frame.keeps_pure _) (Frame.keeps_pure _)

theorem keeps_applyAll (h : T.Keeps (apply env fuel st.installedModulesSorted force dryRun []))
    (applyErr : Option Thrown) : T.Keeps (applyAll env fuel st force dryRun applyErr) := by
  refine Frame.keeps_ite (Frame.keeps_bind (Frame.keeps_attempt h) ?_) (Frame.keeps_pure _)
  rintro (e | plan) <;> exact Frame.keeps_pure _

theorem keeps_revert {mods : List (Module W E)}
    (h : ∀ queries, T.Keeps (applyInverseQueries env fuel queries mods)) (tx : Option String) :
    T.Keeps (revert env fuel mods tx) := by
  refine Frame.keeps_bind (Frame.keeps_reads _) fun _ => ?_
  refine Frame.keeps_bind (keeps_insertLog T env _ _ _ _) fun _ => ?_
  exact Frame.keeps_lastly (Frame.keeps_bind (keeps_findInverseQueries T env _) h)
    (keeps_closeRevert T env tx)

theorem keeps_revertOn (h : ∀ tx, T.Keeps (revert env fuel st.installedModulesSorted tx))
    (applyErr : Option Thrown) : T.Keeps (revertOn env fuel st applyErr) := by
  refine Frame.keeps_ite ?_ (Frame.keeps_pure _)
  refine Frame.keeps_bind (Frame.keeps_reads _) fun tx => ?_
  refine Frame.keeps_bind (Frame.keeps_attempt (h tx)) ?_
  rintro (e | _) <;> exact Frame.keeps_pure _

theorem keeps_afterFirst (h : ∀ applyErr, T.Keeps (laterPhases env fuel st force dryRun applyErr))
    (first : Except Thrown (Option Plan)) : T.Keeps (afterFirst env fuel st force dryRun first) := by
  rcases first with e | _ | plan
  · exact h _
  · exact h _
  · exact Frame.keeps_pure _

end Commit

section Growth

variable {W E : Type}

def growFrame : TraceFrame W E where
  rel s t := s.trace <+: t.trace
  refl _ := List.prefix_rfl
  trans := List.IsPrefix.trans
  same h := h ▸ List.prefix_rfl
  observes _ _ _ := List.prefix_append _ _

theorem grows_emit (ev : Event W E) : growFrame.Keeps (emit ev) :=
  fun _ => List.prefix_append _ _

variable [JsRecord E] (env : Env W E) (force : Bool) (d : Direction W E)
  (relevantModules : List (Module W E)) (dryRun : Bool) (changesToCommit : List IasqlAuditLog)

theorem grows_generators {records : List (DiffRecord W E)} {g : Prog (Engine W E) Thrown Unit}
    (hg : g ∈ generators d records) : growFrame.Keeps g := by
  rcases List.mem_append.mp hg with hg | hg
  · obtain ⟨r, -, hr⟩ := List.mem_flatMap.mp hg
    rcases List.mem_append.mp hr with hr | hr
    · obtain ⟨e, -, rfl⟩ := List.mem_map.mp hr
      exact Frame.keeps_bind (grows_emit _) fun _ =>
        Frame.keeps_bind (keeps_onCtx growFrame _) fun _ => keeps_modifyCtx growFrame _
    · obtain ⟨ec, -, rfl⟩ := List.mem_map.mp hr
      exact Frame.keeps_bind (keeps_modifyCtx growFrame _) fun _ =>
        Frame.keeps_bind (grows_emit _) fun _ =>
          Frame.keeps_bind (keeps_onCtx growFrame _) fun _ => keeps_modifyCtx growFrame _
  · obtain ⟨r, -, hr⟩ := List.mem_flatMap.mp hg
    obtain ⟨e, -, rfl⟩ := List.mem_map.mp hr
    exact Frame.keeps_bind (grows_emit _) fun _ => keeps_onCtx growFrame _

theorem grows_act (l : Loop) (records : List (DiffRecord W E)) :
    growFrame.Keeps (act d l records) := keeps_act growFrame d fun _ => grows_generators d

theorem grows_reconcile (fuel : Nat) :
    growFrame.Keeps (reconcile env force d relevantModules dryRun changesToCommit fuel) :=
  keeps_reconcile growFrame env force d relevantModules changesToCommit
    (fun _ => grows_act d) fuel

theorem grows_applyInverseQueries (fuel : Nat) (queries : List Statement) :
    growFrame.Keeps (applyInverseQueries env fuel queries relevantModules) := by
  refine Frame.keeps_bind (Frame.keeps_each fun q _ => ?_) fun _ =>
    Frame.keeps_bind (grows_reconcile env _ _ _ _ _ _) fun _ => Frame.keeps_pure _
  exact Frame.keeps_bind (grows_emit _) fun _ =>
    Frame.keeps_bind (Frame.keeps_attempt (keeps_onStore growFrame _)) fun _ => Frame.keeps_pure _

theorem grows_revertOn (fuel : Nat) (st : Setup W E) (applyErr : Option Thrown) :
    growFrame.Keeps (revertOn env fuel st applyErr) :=
  keeps_revertOn growFrame env fuel st
    (keeps_revert growFrame env fuel (grows_applyInverseQueries env _ fuel)) applyErr

theorem grows_laterPhases (fuel : Nat) (st : Setup W E) (applyErr : Option Thrown) :
    growFrame.Keeps (laterPhases env fuel st force dryRun applyErr) :=
  Frame.keeps_bind (keeps_applyAll growFrame env fuel force dryRun st
      (grows_reconcile env _ _ _ _ _ _) _) fun _ =>
    Frame.keeps_bind (grows_revertOn env fuel st _) fun _ =>
      Frame.keeps_bind (Frame.keeps_attempt (grows_reconcile env _ _ _ _ _ _)) fun _ =>
        keeps_conclude growFrame _ _ _

theorem grows_phases (fuel : Nat) (st : Setup W E) :
    growFrame.Keeps (phases env fuel st force dryRun) :=
  Frame.keeps_bind (Frame.keeps_attempt
      (keeps_applyChanged growFrame env fuel force dryRun st (grows_reconcile env _ _ _ _ _ _)))
    (keeps_afterFirst growFrame env fuel force dryRun st (grows_laterPhases env force dryRun fuel st))

theorem grows_commitBody (fuel : Nat) (ormOpt : Option Nat) (msg : Option String) (v : String)
    (mods : List (Module W E)) :
    growFrame.Keeps (commitBody env fuel dryRun force ormOpt msg v mods) :=
  Frame.keeps_bind (keeps_startUp growFrame env _ _ _ _ _ _) fun st =>
    Frame.keeps_bind (Frame.keeps_writes fun _ => growFrame.same rfl) fun _ =>
      grows_phases env force dryRun fuel st

end Growth

section Quiet

variable {W E : Type}

def Quiet (s t : Engine W E) : Prop :=
  ∃ b, t.trace = s.trace ++ b ∧ ∀ ev ∈ b, ev.isWrite = false

def quietFrame : TraceFrame W E where
  rel := Quiet
  refl s := ⟨[], by simp⟩
  trans := by
    rintro s t u ⟨b, hb, hq⟩ ⟨c, hc, hr⟩
    refine ⟨b ++ c, by rw [hc, hb, List.append_assoc], ?_⟩
    intro ev hev
    exact (List.mem_append.mp hev).elim (hq ev) (hr ev)
  same h := ⟨[], by simp [h]⟩
  observes s ev h := ⟨[ev], rfl, by simpa using h⟩

theorem quiet_divides : Frame.Divides (growFrame (W := W) (E := E)).toFrame quietFrame.toFrame where
  left := by
    rintro s t u ⟨b, hb⟩ ⟨c, hc⟩ ⟨a, ha, hq⟩
    refine ⟨b, hb.symm, fun ev hev => hq ev ?_⟩
    rw [← hc, ← hb, List.append_assoc, List.append_cancel_left_eq] at ha
    rw [← ha]
    exact List.mem_append_left _ hev
  right := by
    rintro s t u ⟨b, hb⟩ ⟨c, hc⟩ ⟨a, ha, hq⟩
    refine ⟨c, hc.symm, fun ev hev => hq ev ?_⟩
    rw [← hc, ← hb, List.append_assoc, List.append_cancel_left_eq] at ha
    rw [← ha]
    exact List.mem_append_right _ hev

section Bind

variable {α β : Type} {p : Prog (Engine W E) Thrown α} {k : α → Prog (Engine W E) Thrown β}
  {s : Engine W E}

theorem quiet_bind_left (hp : quietFrame.Keeps p) (hg : growFrame.Keeps p)
    (hk : ∀ a, growFrame.Keeps (k a)) :
    Quiet s ((p >>= k) s).2 ↔ ∀ a t, p s = (.returned a, t) → Quiet t (k a t).2 :=
  quiet_divides.bind_left hp hg hk

theorem quiet_bind_right (hg : growFrame.Keeps p) (hk : ∀ a, growFrame.Keeps (k a))
    (hq : ∀ a, quietFrame.Keeps (k a)) : Quiet s ((p >>= k) s).2 ↔ Quiet s (p s).2 :=
  quiet_divides.bind_right hg hk hq

theorem quiet_lastly {q : Prog (Engine W E) Thrown Unit} (hg : growFrame.Keeps p)
    (hq : growFrame.Keeps q) (hk : quietFrame.Keeps q) :
    Quiet s ((p.lastly q) s).2 ↔ Quiet s (p s).2 := quiet_divides.lastly hg hq hk

theorem quiet_attempt : Quiet s (p.attempt s).2 ↔ Quiet s (p s).2 :=
  Frame.rel_attempt (F := quietFrame.toFrame)

end Bind

theorem not_quiet_emit {ev : Event W E} (h : ev.isWrite = true) (s : Engine W E) :
    ¬ Quiet s (emit ev s).2 := by
  rintro ⟨b, hb, hq⟩
  obtain rfl : [ev] = b := List.append_cancel_left hb
  simp [h] at hq

variable [JsRecord E] (env : Env W E) (force : Bool) (d : Direction W E)
  (relevantModules : List (Module W E)) (changesToCommit : List IasqlAuditLog)

theorem quiet_reconcile (fuel : Nat) :
    quietFrame.Keeps (reconcile env force d relevantModules true changesToCommit fuel) :=
  keeps_reconcile quietFrame env force d relevantModules changesToCommit (by simp) fuel

end Quiet

end Iasql
