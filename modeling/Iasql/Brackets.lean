import Iasql.StoreFrame

namespace Iasql

open Program Prog

section Calls

inductive CommitCall where
  | commit (dryRun force : Bool) (ormOpt : Option Nat) (commitMessage : Option String)
  | rollback (force : Bool) (ormOpt : Option Nat)
deriving DecidableEq

namespace CommitCall

def dryRun : CommitCall → Bool
  | .commit dryRun .. => dryRun
  | .rollback .. => false

def force : CommitCall → Bool
  | .commit _ force .. | .rollback force _ => force

def ormOpt : CommitCall → Option Nat
  | .commit _ _ ormOpt _ | .rollback _ ormOpt => ormOpt

def commitMessage : CommitCall → Option String
  | .commit _ _ _ commitMessage => commitMessage
  | .rollback .. => none

def startType (c : CommitCall) : AuditLogChangeType :=
  if c.dryRun then .previewStartCommit else .startCommit

def endType (c : CommitCall) : AuditLogChangeType :=
  if c.dryRun then .previewEndCommit else .endCommit

theorem endType_isCommitMarker (c : CommitCall) : c.endType.isCommitMarker = true := by
  unfold endType
  split <;> rfl

end CommitCall

def commitMarkers (log : List IasqlAuditLog) : List AuditLogChangeType :=
  (log.map (·.changeType)).filter AuditLogChangeType.isCommitMarker

theorem commitMarkers_saveLog (log : List IasqlAuditLog) (row : IasqlAuditLog) :
    commitMarkers (saveLog log row) =
      commitMarkers log ++ if row.changeType.isCommitMarker then [row.changeType] else [] := by
  unfold commitMarkers saveLog
  cases h : row.changeType.isCommitMarker <;> simp [h]

theorem commitMarkers_associate (log rows : List IasqlAuditLog) (tx : Option String) :
    commitMarkers (associateTransaction log rows tx) = commitMarkers log := by
  simp [commitMarkers, associateTransaction, Function.comp_def]

end Calls

section Definitions

variable {W E : Type} [JsRecord E] (env : Env W E) (fuel : Nat)

def CommitCall.run : CommitCall → Prog (Engine W E) Thrown Plan
  | .commit dryRun force ormOpt commitMessage =>
    Iasql.commit env fuel dryRun force ormOpt commitMessage
  | .rollback force ormOpt => Iasql.rollback env fuel force ormOpt

def CommitCall.body (c : CommitCall) (versionString : String)
    (importedModules : List (Module W E)) : Prog (Engine W E) Thrown Plan :=
  match c with
  | .commit dryRun force ormOpt commitMessage =>
    commitBody env fuel dryRun force ormOpt commitMessage versionString importedModules
  | .rollback force ormOpt => rollbackBody env fuel force ormOpt importedModules

omit [JsRecord E] in
-- the body up to the insertion of the START marker
def CommitCall.opening (c : CommitCall) : Prog (Engine W E) Thrown IasqlAuditLog := do
  takeOrm env c.force c.ormOpt
  beginLog env c.dryRun c.commitMessage

def markersOf (s : Engine W E) : List AuditLogChangeType := commitMarkers s.ctx.store.auditLog

-- the call logs nothing, or its START and then its END
def Bracketed (s : Engine W E) (c : CommitCall) : Prop :=
  markersOf (c.run env fuel s).2 = markersOf s ∨
    markersOf (c.run env fuel s).2 = markersOf s ++ [c.startType, c.endType]

def atTry (s : Engine W E) : Engine W E := { s with orm := none, currentTransactionId := none }

omit [JsRecord E] in
def Connects (c : CommitCall) (s : Engine W E) : Prop :=
  ∃ orm t, chooseOrm env c.ormOpt s = (.returned orm, t)

omit [JsRecord E] in
def Opens (c : CommitCall) (s : Engine W E) : Prop :=
  ∃ row t, c.opening env s = (.returned row, t)

-- the try and the catch come to an end, and then no query of the finally block fails
def Finishes (c : CommitCall) (start : String × List (Module W E)) (parentOrm : Option Nat)
    (s : Engine W E) : Prop :=
  ∃ o u v, caught env (c.body env fuel start.1 start.2) s = (o, u) ∧ o ≠ .diverged ∧
    closing env c.startType c.endType c.ormOpt parentOrm u = (.returned (), v)

def Tidy (s : Engine W E) (c : CommitCall) : Prop :=
  ∀ start t, entry env c.force s = (.returned start, t) → Connects env c (atTry t) →
    (Opens env c (atTry t) ↔ Finishes env fuel c start t.ctx.orm (atTry t))

inductive SessionStep (W E : Type) where
  | call (c : CommitCall)
  -- whatever happens between two calls
  | elsewhere (f : Engine W E → Engine W E)

def Along (P : Engine W E → CommitCall → Prop) : List (SessionStep W E) → Engine W E → Prop
  | [], _ => True
  | .call c :: steps, s => P s c ∧ Along P steps (c.run env fuel s).2
  | .elsewhere f :: steps, s => Along P steps (f s)

end Definitions

section Frames

variable {W E : Type}

def markerFrame : StoreFrame W E where
  rel s t := markersOf t = markersOf s
  refl _ := rfl
  trans h k := k.trans h
  store := Frame.ofField fun st => commitMarkers st.auditLog
  same _ _ h := h
  observes _ _ _ := rfl

def ormFrame : StoreFrame W E where
  rel s t := t.orm = s.orm
  refl _ := rfl
  trans h k := k.trans h
  store := { rel := fun _ _ => True, refl := fun _ => trivial, trans := fun _ _ => trivial }
  same _ h _ := h.symm
  observes _ _ _ := rfl

theorem markers_logKeeps (cfg : Config) : LogKeeps (markerFrame (W := W) (E := E)).store cfg where
  insert st t ht ts tx msg := by
    change commitMarkers (saveLog _ _) = _
    rw [commitMarkers_saveLog, newLog_changeType, ht]
    simp
  error st ts err tx := by
    change commitMarkers (saveLog _ _) = _
    rw [commitMarkers_saveLog]
    simp [newErrorLog, AuditLogChangeType.isCommitMarker]
  associate st rows tx := commitMarkers_associate _ rows tx

theorem orm_logKeeps (cfg : Config) : LogKeeps (ormFrame (W := W) (E := E)).store cfg :=
  ⟨fun _ _ _ _ _ _ => trivial, fun _ _ _ _ => trivial, fun _ _ _ => trivial⟩

theorem orm_envKeeps (env : Env W E) : EnvKeeps (ormFrame (W := W) (E := E)).store env := by
  have hmapper : ∀ m : Mapper W E, MapperKeeps (ormFrame (W := W) (E := E)).store m := fun m =>
    ⟨fun _ _ _ => trivial, fun _ _ => trivial, fun _ _ _ => trivial, fun _ _ _ => trivial,
      fun _ _ => trivial⟩
  exact ⟨fun _ => trivial, fun _ => trivial, fun _ _ => trivial, fun _ => trivial,
    fun _ => trivial, fun _ => trivial, fun _ _ => trivial, fun _ _ => trivial,
    fun _ _ m _ => hmapper m⟩

end Frames

section Markers

variable {W E : Type} {env : Env W E}

section Insertion

variable (hE : EnvKeeps (markerFrame (W := W) (E := E)).store env)

include hE

theorem writeLog_keepsOrReturns (f : List IasqlAuditLog → List IasqlAuditLog) :
    markerFrame.KeepsOrReturns (writeLog env f) := by
  refine Frame.keepsOrReturns_bind (markerFrame.keeps_onStore hE.roundTrip) fun _ s => ?_
  exact .inr ⟨_, _, rfl⟩

theorem insertLog_keepsOrReturns (orm : Option Nat) (t : AuditLogChangeType)
    (tx msg : Option String) : markerFrame.KeepsOrReturns (insertLog env orm t tx msg) := by
  refine Frame.keepsOrReturns_bind (markerFrame.keeps_newDate hE) fun ts => ?_
  refine Frame.keepsOrReturns_then ?_ fun _ s => ⟨_, _, rfl⟩
  unfold saveThrough
  split
  · exact writeLog_keepsOrReturns hE _
  · exact fun s => .inr ⟨_, _, rfl⟩

theorem insertLog_returned {orm : Option Nat} (horm : orm.isSome = true) {t : AuditLogChangeType}
    (ht : t.isCommitMarker = true) {tx msg : Option String} {s u : Engine W E}
    {row : IasqlAuditLog} (h : insertLog env orm t tx msg s = (.returned row, u)) :
    markersOf u = markersOf s ++ [t] := by
  obtain ⟨ts, s₁, hdate, hsave⟩ := bind_returned_inv h
  obtain ⟨_, s₂, hwrite, hpure⟩ := bind_returned_inv hsave
  cases hpure
  rw [saveThrough, if_pos horm] at hwrite
  obtain ⟨_, s₃, htrip, hlog⟩ := bind_returned_inv hwrite
  have h₁ : markersOf s₁ = markersOf s := Frame.rel_of_eq (markerFrame.keeps_newDate hE) hdate
  have h₃ : markersOf s₃ = markersOf s₁ :=
    Frame.rel_of_eq (markerFrame.keeps_onStore hE.roundTrip) htrip
  cases hlog
  change commitMarkers (saveLog _ _) = _
  rw [commitMarkers_saveLog, newLog_changeType, ht, if_pos rfl]
  exact congrArg (· ++ [t]) (h₃.trans h₁)

end Insertion

section Opening

variable (hE : EnvKeeps (markerFrame (W := W) (E := E)).store env)

include hE

theorem keeps_takeOrm_markers (force : Bool) (ormOpt : Option Nat) :
    markerFrame.Keeps (takeOrm env force ormOpt) :=
  Frame.keeps_bind (markerFrame.keeps_chooseOrm hE ormOpt) fun _ =>
    Frame.keeps_bind (Frame.keeps_writes fun _ => rfl) fun _ =>
      markerFrame.keeps_failIfCommitRunning hE force

theorem beginLog_keepsOrReturns (dryRun : Bool) (msg : Option String) :
    markerFrame.KeepsOrReturns (beginLog env dryRun msg) := by
  refine Frame.keepsOrReturns_bind (markerFrame.keeps_readLog hE _) fun tx => ?_
  refine Frame.keepsOrReturns_bind (Frame.keeps_writes fun _ => rfl) fun _ => ?_
  refine Frame.keepsOrReturns_bind (Frame.keeps_reads _) fun orm => ?_
  refine Frame.keepsOrReturns_bind
    (markerFrame.keeps_insertCommitMessage hE (markers_logKeeps _) orm tx msg) fun _ => ?_
  exact Frame.keepsOrReturns_then (insertLog_keepsOrReturns hE _ _ _ _) fun row s => ⟨_, _, rfl⟩

theorem beginLog_returned {dryRun : Bool} {msg : Option String} {s t : Engine W E}
    {row : IasqlAuditLog} (horm : s.orm.isSome = true)
    (h : beginLog env dryRun msg s = (.returned row, t)) :
    markersOf t = markersOf s ++ [if dryRun then .previewStartCommit else .startCommit] := by
  obtain ⟨tx, s₁, hread, h⟩ := bind_returned_inv h
  obtain ⟨_, s₂, hwrite, h⟩ := bind_returned_inv h
  obtain ⟨orm, s₃, horm', h⟩ := bind_returned_inv h
  obtain ⟨_, s₄, hmsg, h⟩ := bind_returned_inv h
  obtain ⟨row', s₅, hinsert, h⟩ := bind_returned_inv h
  obtain ⟨_, s₆, hctx, h⟩ := bind_returned_inv h
  cases h
  cases hctx
  cases horm'
  cases hwrite
  have horm₁ : s₁.orm = s.orm := Frame.rel_of_eq (ormFrame.keeps_readLog (orm_envKeeps env) _) hread
  have hsome : s₁.orm.isSome = true := horm₁ ▸ horm
  have h₁ : markersOf s₁ = markersOf s := Frame.rel_of_eq (markerFrame.keeps_readLog hE _) hread
  have h₄ := Frame.rel_of_eq
    (markerFrame.keeps_insertCommitMessage hE (markers_logKeeps _) _ _ _) hmsg
  change markersOf s₄ = markersOf s₁ at h₄
  have hmarker : (if dryRun then AuditLogChangeType.previewStartCommit
      else .startCommit).isCommitMarker = true := by cases dryRun <;> rfl
  have hlast := insertLog_returned hE hsome hmarker hinsert
  rw [h₄, h₁] at hlast
  cases dryRun <;> exact hlast

omit hE in
theorem takeOrm_returned {force : Bool} {ormOpt : Option Nat} {s t : Engine W E} {u : Unit}
    (h : takeOrm env force ormOpt s = (.returned u, t)) : t.orm.isSome = true := by
  obtain ⟨orm, s₁, -, h⟩ := bind_returned_inv h
  obtain ⟨_, s₂, hwrite, h⟩ := bind_returned_inv h
  cases hwrite
  have horm := Frame.rel_of_eq (ormFrame.keeps_failIfCommitRunning (orm_envKeeps env) force) h
  exact horm ▸ rfl

theorem opening_returned {c : CommitCall} {s t : Engine W E} {row : IasqlAuditLog}
    (h : c.opening env s = (.returned row, t)) :
    markersOf t = markersOf s ++ [c.startType] := by
  obtain ⟨_, s₁, htake, hbegin⟩ := bind_returned_inv h
  have h₁ : markersOf s₁ = markersOf s := Frame.rel_of_eq (keeps_takeOrm_markers hE _ _) htake
  rw [beginLog_returned hE (takeOrm_returned htake) hbegin, h₁]
  rfl

theorem opening_cut {c : CommitCall} {s : Engine W E} (h : ¬ Opens env c s) :
    markersOf (c.opening env s).2 = markersOf s := by
  have hopening : markerFrame.KeepsOrReturns (c.opening env) :=
    Frame.keepsOrReturns_bind (keeps_takeOrm_markers hE _ _) fun _ => beginLog_keepsOrReturns hE _ _
  rcases hopening s with hkeep | ⟨row, t, hreturned⟩
  · exact hkeep
  · exact absurd ⟨row, t, hreturned⟩ h

end Opening

section Closing

variable {startType endType : AuditLogChangeType} {ormOpt parentOrm : Option Nat} {s t : Engine W E}

theorem releaseOrm_returns (orm ormOpt : Option Nat) (s : Engine W E) :
    ∃ t, releaseOrm env orm ormOpt s = (.returned (), t) := by
  unfold releaseOrm
  split
  · exact ⟨_, rfl⟩
  · exact ⟨_, rfl⟩

variable (hE : EnvKeeps (markerFrame (W := W) (E := E)).store env)

include hE

theorem keeps_releaseOrm (orm ormOpt : Option Nat) :
    markerFrame.Keeps (releaseOrm env orm ormOpt) :=
  Frame.keeps_ite (Frame.keeps_pure _)
    (Frame.keeps_detached (markerFrame.keeps_onStore (hE.dropConn orm)))

omit hE in
theorem saveThrough_none (f : List IasqlAuditLog → List IasqlAuditLog) :
    saveThrough env none f = pure () := by simp [saveThrough]

theorem insertLog_unconnected (t : AuditLogChangeType) (tx msg : Option String) :
    markerFrame.Keeps (insertLog env none t tx msg) := by
  refine Frame.keeps_bind (markerFrame.keeps_newDate hE) fun ts => ?_
  simp only [saveThrough_none]
  exact Frame.keeps_bind (Frame.keeps_pure _) fun _ => Frame.keeps_pure _

theorem closing_unconnected (horm : s.orm = none) :
    markersOf (closing env startType endType ormOpt parentOrm s).2 = markersOf s := by
  have hrest : ∀ tx, markerFrame.Keeps (do
      recordsSince env none startType tx
      let _ ← insertLog env none endType tx none
      releaseOrm env none ormOpt
      modifyCtx fun ctx => if parentOrm.isSome then { ctx with orm := parentOrm } else ctx) := by
    intro tx
    refine Frame.keeps_bind (markerFrame.keeps_recordsSince hE (markers_logKeeps _) _ _ _) fun _ => ?_
    refine Frame.keeps_bind (insertLog_unconnected hE _ _ _) fun _ => ?_
    refine Frame.keeps_bind (keeps_releaseOrm hE _ _) fun _ => ?_
    exact markerFrame.keeps_modifyCtx fun ctx => by split <;> rfl
  have hkeep := hrest s.currentTransactionId s
  rw [← horm] at hkeep
  exact hkeep

theorem closing_keepsOrReturns :
    markerFrame.KeepsOrReturns (closing env startType endType ormOpt parentOrm) := by
  refine Frame.keepsOrReturns_bind (Frame.keeps_reads _) fun p => ?_
  refine Frame.keepsOrReturns_bind
    (markerFrame.keeps_recordsSince hE (markers_logKeeps _) _ _ _) fun _ => ?_
  refine Frame.keepsOrReturns_then (insertLog_keepsOrReturns hE _ _ _ _) fun _ s => ?_
  obtain ⟨t, ht⟩ := releaseOrm_returns p.1 ormOpt s
  exact ⟨(), _, bind_of_returned ht⟩

theorem closing_returned (horm : s.orm.isSome = true) (hend : endType.isCommitMarker = true)
    (h : closing env startType endType ormOpt parentOrm s = (.returned (), t)) :
    markersOf t = markersOf s ++ [endType] := by
  obtain ⟨p, s₁, hread, h⟩ := bind_returned_inv h
  cases hread
  obtain ⟨_, s₂, hsince, h⟩ := bind_returned_inv h
  obtain ⟨row, s₃, hinsert, h⟩ := bind_returned_inv h
  obtain ⟨_, s₄, hrelease, h⟩ := bind_returned_inv h
  have h₂ := Frame.rel_of_eq (markerFrame.keeps_recordsSince hE (markers_logKeeps _) _ _ _) hsince
  change markersOf s₂ = markersOf s at h₂
  have h₄ : markersOf s₄ = markersOf s₃ := Frame.rel_of_eq (keeps_releaseOrm hE _ _) hrelease
  have ht : markersOf t = markersOf s₄ := Frame.rel_of_eq (markerFrame.keeps_modifyCtx fun ctx => by
    split <;> rfl) h
  rw [ht, h₄, insertLog_returned hE horm hend hinsert, h₂]

end Closing

end Markers

section Body

variable {W E : Type} {env : Env W E}

def afterBegin (env : Env W E) (versionString : String) (importedModules : List (Module W E))
    (newStartCommit : IasqlAuditLog) : Prog (Engine W E) Thrown (Setup W E) := do
  let changesToCommit ← findChanges env newStartCommit
  let names ← findInstalledModules env
  let installedModules := importedModules.filter fun mod => names.contains mod.fullName
  let modulesWithChanges := getModulesWithChanges importedModules installedModules names
    (tablesOf changesToCommit) versionString
  let modulesWithChangesSorted ← sorted modulesWithChanges names
  let installedModulesSorted ← sorted (installedModules.map some) names
  return { changesToCommit, hasChanges := !modulesWithChanges.isEmpty, modulesWithChangesSorted,
           installedModulesSorted }

theorem mem_of_sorted_filter {imported : List (Module W E)} {p : Module W E → Bool}
    {names : List String} {s t : Engine W E} {out : List (Module W E)}
    (h : sorted ((imported.filter p).map some) names s = (.returned out, t)) :
    ∀ m ∈ out, m ∈ imported := by
  intro m hm
  obtain ⟨m', hm', heq⟩ := List.mem_map.mp (sorted_returned h m hm)
  obtain rfl := Option.some.inj heq
  exact (List.mem_filter.mp hm').1

theorem afterBegin_returned {v : String} {imported : List (Module W E)} {row : IasqlAuditLog}
    {s t : Engine W E} {st : Setup W E} (h : afterBegin env v imported row s = (.returned st, t)) :
    (∀ m ∈ st.modulesWithChangesSorted, m ∈ imported) ∧
      ∀ m ∈ st.installedModulesSorted, m ∈ imported := by
  obtain ⟨changes, s₁, -, h⟩ := bind_returned_inv h
  obtain ⟨names, s₂, -, h⟩ := bind_returned_inv h
  obtain ⟨changed, s₃, hchanged, h⟩ := bind_returned_inv h
  obtain ⟨installed, s₄, hinstalled, h⟩ := bind_returned_inv h
  cases h
  exact ⟨fun m hm => mem_getModulesWithChanges (sorted_returned hchanged m hm),
    mem_of_sorted_filter hinstalled⟩

variable [JsRecord E] (fuel : Nat)

def CommitCall.rest (env : Env W E) (c : CommitCall) (v : String) (imported : List (Module W E))
    (row : IasqlAuditLog) : Prog (Engine W E) Thrown Plan :=
  match c with
  | .commit dryRun force _ _ => do
    let st ← afterBegin env v imported row
    Prog.writes fun s => { s with crupdes := {} }
    phases env fuel st force dryRun
  | .rollback force _ => do
    let _ ← findChanges env row
    let names ← findInstalledModules env
    let installedModules := imported.filter fun mod => names.contains mod.fullName
    let installedModulesSorted ← sorted (installedModules.map some) names
    Prog.writes fun s => { s with crupdes := {} }
    sync env fuel installedModulesSorted force false

theorem body_apply (c : CommitCall) (v : String) (imported : List (Module W E))
    (s : Engine W E) :
    c.body env fuel v imported s = (c.opening env >>= c.rest fuel env v imported) s := by
  cases c with
  | commit dryRun force ormOpt msg =>
    change ((takeOrm env force ormOpt >>= fun _ =>
      beginLog env dryRun msg >>= afterBegin env v imported) >>= fun st =>
        Prog.writes (fun s => { s with crupdes := {} }) >>= fun _ =>
          phases env fuel st force dryRun) s = ((takeOrm env force ormOpt >>= fun _ =>
            beginLog env dryRun msg) >>= _) s
    rw [bind_assoc_apply, bind_assoc_apply]
    exact bind_congr_apply (fun _ t => bind_assoc_apply _ _ _ t) s
  | rollback force ormOpt =>
    change (takeOrm env force ormOpt >>= fun _ => beginLog env false none >>= _) s =
      ((takeOrm env force ormOpt >>= fun _ => beginLog env false none) >>= _) s
    rw [bind_assoc_apply]
    rfl

variable (F : StoreFrame W E) (hE : EnvKeeps F.store env) (hL : LogKeeps F.store env.cfg)
  (hP : F.PhasesKeep env)

include hE hL hP in
theorem keeps_rest (c : CommitCall) (v : String) (row : IasqlAuditLog) :
    F.Keeps (c.rest fuel env v env.allModules row) := by
  cases c with
  | commit dryRun force ormOpt msg =>
    have hafter : F.Keeps (afterBegin env v env.allModules row) := by
      refine Frame.keeps_bind (F.keeps_findChanges hE hL row) fun _ => ?_
      refine Frame.keeps_bind (F.keeps_findInstalledModules hE) fun _ => ?_
      refine Frame.keeps_bind (F.keeps_sorted _ _) fun _ => ?_
      exact Frame.keeps_bind (F.keeps_sorted _ _) fun _ => Frame.keeps_pure _
    refine Frame.keeps_bind_of hafter fun s st t hreturned => ?_
    obtain ⟨hchanged, hinstalled⟩ := afterBegin_returned hreturned
    exact Frame.keeps_bind (F.keeps_plan _) (fun _ => F.keeps_phases hE hL hP fuel force dryRun
      hchanged hinstalled) t
  | rollback force ormOpt =>
    refine Frame.keeps_bind (F.keeps_findChanges hE hL row) fun _ => ?_
    refine Frame.keeps_bind (F.keeps_findInstalledModules hE) fun names => ?_
    refine Frame.keeps_bind_of (F.keeps_sorted _ _) fun s mods t hsorted => ?_
    exact Frame.keeps_bind (F.keeps_plan _) (fun _ =>
      hP.sync fuel force false (mem_of_sorted_filter hsorted)) t

end Body

section Bracketing

variable {W E : Type} {env : Env W E}

section Connection

theorem keeps_beginLog_orm (dryRun : Bool) (msg : Option String) :
    ormFrame.Keeps (beginLog env dryRun msg) := by
  have hE := orm_envKeeps env
  refine Frame.keeps_bind (ormFrame.keeps_readLog hE _) fun _ => ?_
  refine Frame.keeps_bind (Frame.keeps_writes fun _ => rfl) fun _ => ?_
  refine Frame.keeps_bind (Frame.keeps_reads _) fun orm => ?_
  refine Frame.keeps_bind
    (ormFrame.keeps_insertCommitMessage hE (orm_logKeeps _) _ _ _) fun _ => ?_
  refine Frame.keeps_bind (Frame.keeps_bind (ormFrame.keeps_newDate hE) fun _ => ?_) fun _ =>
    Frame.keeps_bind (ormFrame.keeps_modifyCtx fun ctx => by split <;> rfl) fun _ =>
      Frame.keeps_pure _
  exact Frame.keeps_bind (ormFrame.keeps_saveThrough hE orm fun _ => trivial) fun _ =>
    Frame.keeps_pure _

theorem opening_unconnected {c : CommitCall} {s : Engine W E} (h : ¬ Connects env c s) :
    (c.opening env s).2.orm = s.orm ∧ ¬ Opens env c s := by
  have hchoose := ormFrame.keeps_chooseOrm (orm_envKeeps env) c.ormOpt s
  have hopening : c.opening env s = ((chooseOrm env c.ormOpt >>= fun orm =>
      Prog.writes (fun s => { s with orm := some orm, ctx := { s.ctx with orm := some orm } }) >>=
        fun _ => failIfCommitRunning env c.force) >>= fun _ =>
          beginLog env c.dryRun c.commitMessage) s := rfl
  rw [bind_assoc_apply] at hopening
  match hs : chooseOrm env c.ormOpt s with
  | (.returned orm, t) => exact absurd ⟨orm, t, hs⟩ h
  | (.thrown e, t) =>
    rw [bind_of_thrown hs] at hopening
    rw [hs] at hchoose
    exact ⟨by rw [hopening]; exact hchoose, fun ⟨row, u, hu⟩ => by rw [hopening] at hu; cases hu⟩
  | (.diverged, t) =>
    rw [bind_of_diverged hs] at hopening
    rw [hs] at hchoose
    exact ⟨by rw [hopening]; exact hchoose, fun ⟨row, u, hu⟩ => by rw [hopening] at hu; cases hu⟩

theorem opening_connected {c : CommitCall} {s : Engine W E} (h : Connects env c s) :
    (c.opening env s).2.orm.isSome = true := by
  obtain ⟨orm, t, ht⟩ := h
  have htake : (takeOrm env c.force c.ormOpt s).2.orm = some orm := by
    unfold takeOrm
    rw [bind_of_returned ht]
    exact ormFrame.keeps_failIfCommitRunning (orm_envKeeps env) c.force
      { t with orm := some orm, ctx := { t.ctx with orm := some orm } }
  have hbegin : (c.opening env s).2.orm = (takeOrm env c.force c.ormOpt s).2.orm :=
    Frame.rel_after_bind (F := ormFrame.toFrame) (fun _ => keeps_beginLog_orm _ _) s
  rw [hbegin, htake]
  rfl

end Connection

variable [JsRecord E] (fuel : Nat) (hE : EnvKeeps (markerFrame (W := W) (E := E)).store env)

theorem caught_rel (F : StoreFrame W E) (hF : EnvKeeps F.store env)
    (hL : LogKeeps F.store env.cfg) (hev : ∀ ev, F.Keeps (emit ev)) (c : CommitCall)
    (v : String) (s : Engine W E) :
    F.rel (c.opening env s).2 (caught env (c.body env fuel v env.allModules) s).2 := by
  have hbody : F.rel (c.opening env s).2 (c.body env fuel v env.allModules s).2 := by
    rw [body_apply]
    exact Frame.rel_after_bind (keeps_rest fuel F hF hL (F.phasesKeep_of_emit hF hev) c v) s
  have hcaught := Frame.rel_after_bind (p := (c.body env fuel v env.allModules).attempt)
    (@StoreFrame.keeps_rethrowLogged _ _ F _ hF hL Plan) s
  rw [Frame.attempt_snd] at hcaught
  exact F.trans hbody hcaught

theorem run_apply (c : CommitCall) (s : Engine W E) :
    c.run env fuel s = (entry env c.force >>= fun start =>
      guarded env c.startType c.endType c.ormOpt (c.body env fuel start.1 start.2)) s := by
  cases c <;> rfl

omit [JsRecord E] in
theorem guarded_apply {α : Type} (startType endType : AuditLogChangeType) (ormOpt : Option Nat)
    (body : Prog (Engine W E) Thrown α) (s : Engine W E) :
    guarded env startType endType ormOpt body s =
      (caught env body).lastly (closing env startType endType ormOpt s.ctx.orm) (atTry s) := rfl

include hE

theorem caught_markers (c : CommitCall) (v : String) (s : Engine W E) :
    markersOf (caught env (c.body env fuel v env.allModules) s).2 =
      markersOf (c.opening env s).2 :=
  caught_rel fuel markerFrame hE (markers_logKeeps _) (fun _ _ => rfl) c v s

omit hE in
theorem caught_orm (c : CommitCall) (v : String) (s : Engine W E) :
    (caught env (c.body env fuel v env.allModules) s).2.orm = (c.opening env s).2.orm :=
  caught_rel fuel ormFrame (orm_envKeeps env) (orm_logKeeps _) (fun _ _ => rfl) c v s

theorem guarded_unconnected {c : CommitCall} {s : Engine W E} (v : String)
    (hc : ¬ Connects env c (atTry s)) :
    markersOf (guarded env c.startType c.endType c.ormOpt (c.body env fuel v env.allModules) s).2 =
      markersOf s := by
  obtain ⟨horm, hopens⟩ := opening_unconnected hc
  have hmarkers := (caught_markers fuel hE c v (atTry s)).trans (opening_cut hE hopens)
  have hnone := (caught_orm fuel c v (atTry s)).trans horm
  rw [guarded_apply]
  match hu : caught env (c.body env fuel v env.allModules) (atTry s) with
  | (.diverged, u) =>
    rw [hu] at hmarkers
    rw [lastly_snd_of_diverged hu]
    exact hmarkers
  | (.returned a, u) =>
    rw [hu] at hmarkers hnone
    rw [lastly_snd hu (by simp), closing_unconnected hE hnone]
    exact hmarkers
  | (.thrown e, u) =>
    rw [hu] at hmarkers hnone
    rw [lastly_snd hu (by simp), closing_unconnected hE hnone]
    exact hmarkers

omit [JsRecord E] in
open Classical in
theorem opening_markers (c : CommitCall) (s : Engine W E) :
    markersOf (c.opening env s).2 =
      markersOf s ++ if Opens env c s then [c.startType] else [] := by
  by_cases hopens : Opens env c s
  · obtain ⟨row, t, ht⟩ := hopens
    rw [if_pos ⟨row, t, ht⟩, ht]
    exact opening_returned hE ht
  · rw [if_neg hopens, List.append_nil]
    exact opening_cut hE hopens

omit [JsRecord E] in
open Classical in
theorem closing_markers {c : CommitCall} {parentOrm : Option Nat} {u : Engine W E}
    (horm : u.orm.isSome = true) :
    markersOf (closing env c.startType c.endType c.ormOpt parentOrm u).2 = markersOf u ++
      if ∃ v, closing env c.startType c.endType c.ormOpt parentOrm u = (.returned (), v)
      then [c.endType] else [] := by
  rcases closing_keepsOrReturns hE u with hkeep | ⟨_, v, hv⟩
  · have hnot : ¬ ∃ v, closing env c.startType c.endType c.ormOpt parentOrm u =
        (.returned (), v) := by
      rintro ⟨v, hv⟩
      have hlonger := closing_returned hE horm c.endType_isCommitMarker hv
      rw [hv] at hkeep
      have hsame : markersOf v = markersOf u := hkeep
      simp [hsame] at hlonger
    rw [if_neg hnot, List.append_nil]
    exact hkeep
  · rw [if_pos ⟨v, hv⟩, hv]
    exact closing_returned hE horm c.endType_isCommitMarker hv

open Classical in
theorem guarded_connected {c : CommitCall} {s : Engine W E} (v : String)
    (hc : Connects env c (atTry s)) :
    markersOf (guarded env c.startType c.endType c.ormOpt (c.body env fuel v env.allModules) s).2 =
      markersOf s ++ (if Opens env c (atTry s) then [c.startType] else []) ++
        if Finishes env fuel c (v, env.allModules) s.ctx.orm (atTry s) then [c.endType] else [] := by
  have hmarkers := (caught_markers fuel hE c v (atTry s)).trans (opening_markers hE c (atTry s))
  have horm := (caught_orm fuel c v (atTry s)).symm ▸ opening_connected hc
  rw [guarded_apply]
  rcases hu : caught env (c.body env fuel v env.allModules) (atTry s) with ⟨o, u⟩
  rw [hu] at hmarkers horm
  by_cases ho : o = .diverged
  · subst ho
    have hnot : ¬ Finishes env fuel c (v, env.allModules) s.ctx.orm (atTry s) := by
      rintro ⟨o, u', _, hu', hdiverged, -⟩
      rw [hu] at hu'
      exact hdiverged (Prod.mk.inj hu').1.symm
    rw [lastly_snd_of_diverged hu, if_neg hnot, List.append_nil]
    exact hmarkers
  · have hiff : Finishes env fuel c (v, env.allModules) s.ctx.orm (atTry s) ↔
        ∃ w, closing env c.startType c.endType c.ormOpt s.ctx.orm u = (.returned (), w) := by
      constructor
      · rintro ⟨o', u', w, hu', -, hw⟩
        rw [hu] at hu'
        exact ⟨w, (Prod.mk.inj hu').2 ▸ hw⟩
      · rintro ⟨w, hw⟩
        exact ⟨o, u, w, hu, ho, hw⟩
    have hstart : markersOf (atTry s) = markersOf s := rfl
    rw [lastly_snd hu ho, closing_markers hE horm, hmarkers, hstart]
    simp only [hiff]

omit [JsRecord E] hE in
theorem bracket_cases {ms : List AuditLogChangeType} {a b : AuditLogChangeType} (S Z : Prop)
    [Decidable S] [Decidable Z] :
    (ms ++ (if S then [a] else []) ++ (if Z then [b] else []) = ms ∨
      ms ++ (if S then [a] else []) ++ (if Z then [b] else []) = ms ++ [a, b]) ↔ (S ↔ Z) := by
  by_cases hS : S <;> by_cases hZ : Z <;> simp [hS, hZ]

theorem bracketed_call (s : Engine W E) (c : CommitCall) :
    Bracketed env fuel s c ↔ Tidy env fuel s c := by
  classical
  unfold Bracketed
  rw [run_apply]
  rcases hs : entry env c.force s with ⟨o, t⟩
  cases o with
  | thrown e =>
    have hkeep := Frame.rel_of_eq (markerFrame.keeps_entry hE c.force) hs
    rw [bind_of_thrown hs]
    exact ⟨fun _ start t' heq => by simp [hs] at heq, fun _ => .inl hkeep⟩
  | diverged =>
    have hkeep := Frame.rel_of_eq (markerFrame.keeps_entry hE c.force) hs
    rw [bind_of_diverged hs]
    exact ⟨fun _ start t' heq => by simp [hs] at heq, fun _ => .inl hkeep⟩
  | returned start =>
    have hsame : markersOf t = markersOf s := Frame.rel_of_eq (markerFrame.keeps_entry hE c.force) hs
    obtain ⟨v, mods⟩ := start
    obtain rfl : mods = env.allModules := entry_returned hs
    have htidy : Tidy env fuel s c ↔ (Connects env c (atTry t) → (Opens env c (atTry t) ↔
        Finishes env fuel c (v, env.allModules) t.ctx.orm (atTry t))) := by
      refine ⟨fun h => h _ _ hs, fun h start t' heq => ?_⟩
      rw [hs] at heq
      cases heq
      exact h
    rw [bind_of_returned hs, htidy]
    by_cases hc : Connects env c (atTry t)
    · rw [guarded_connected fuel hE v hc, hsame, bracket_cases]
      exact ⟨fun h _ => h, fun h => h hc⟩
    · rw [guarded_unconnected fuel hE v hc, hsame]
      exact ⟨fun _ h => absurd h hc, fun _ => .inl rfl⟩

theorem bracketed_iff_tidy (steps : List (SessionStep W E)) (s : Engine W E) :
    Along env fuel (Bracketed env fuel) steps s ↔ Along env fuel (Tidy env fuel) steps s := by
  induction steps generalizing s with
  | nil => exact Iff.rfl
  | cons step steps ih =>
    cases step with
    | call c => exact and_congr (bracketed_call fuel hE s c) (ih _)
    | elsewhere f => exact ih _

end Bracketing

section Unmatched

-- the world counts the round trips, and the one with this number fails
def flakyEnv (k : Nat) : Env Nat String :=
  { Env.reliable { dbUser := "iasql", version := "0.0.1" } [] with
    roundTrip := fun st =>
      (if st.world = k then .thrown (.error "Connection terminated") else .returned (),
        { st with world := st.world + 1 }) }

theorem flakyEnv_keeps (k : Nat) :
    EnvKeeps (markerFrame (W := Nat) (E := String)).store (flakyEnv k) where
  newDate _ := rfl
  createConn _ := rfl
  dropConn _ _ := rfl
  roundTrip _ := rfl
  upgrading _ := rfl
  versionString _ := rfl
  recreateEntities _ _ := rfl
  query _ _ := rfl
  modules := by simp [ModulesKeep, flakyEnv, Env.reliable]

def freshEngine : Engine Nat String where
  ctx := { store := { world := 0, auditLog := [] } }

-- the second round trip asks for the transaction, the tenth belongs to the finally block
theorem markers_unmatched :
    ¬ Bracketed (flakyEnv 1) 2 freshEngine (.commit false false none none) ∧
      ¬ Bracketed (flakyEnv 9) 2 freshEngine (.commit false false none none) := by
  have hend : markersOf ((CommitCall.commit false false none none).run (flakyEnv 1) 2
      freshEngine).2 = [.endCommit] := by decide +kernel
  have hstart : markersOf ((CommitCall.commit false false none none).run (flakyEnv 9) 2
      freshEngine).2 = [.startCommit] := by decide +kernel
  constructor
  · rintro (h | h) <;> rw [hend] at h <;> exact absurd h (by decide)
  · rintro (h | h) <;> rw [hstart] at h <;> exact absurd h (by decide)

def threeCalls : List (SessionStep Nat String) :=
  [.call (.commit true false none none), .call (.commit false false none (some "first")),
   .call (.rollback false (some 7))]

theorem threeCalls_tidy : Along (flakyEnv 99) 2 (Tidy (flakyEnv 99) 2) threeCalls freshEngine := by
  refine (bracketed_iff_tidy 2 (flakyEnv_keeps 99) threeCalls freshEngine).mp ⟨?_, ?_, ?_, trivial⟩
  · exact .inr (by decide +kernel)
  · exact .inr (by decide +kernel)
  · exact .inr (by decide +kernel)

end Unmatched

end Iasql
