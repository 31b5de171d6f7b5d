import Iasql.Calculus.NestedLoops
import Iasql.StoreFrame

namespace Iasql

open Program Prog

section Loader

variable {σ : Type} {gs : List (Prog σ Thrown Unit)}

def Thrown.Carries (e : Thrown) : Prop := e.carriesStack = true

def Unresolved (e : Thrown) : Prop :=
  ∃ generatorsToRun failures,
    e = .depError "Forward progress halted. Some promises never resolved" generatorsToRun failures

theorem stops_onePass {Q : Thrown → Prop} {gs : List (Generator σ)}
    (h : ∀ g ∈ gs, Stops Thrown.Carries g.2) : Stops Q (onePass gs) := by
  induction gs with
  | nil => exact stops_pure _
  | cons g gs ih =>
    have hrest : Stops Q (onePass gs) := ih fun x hx => h x (by simp [hx])
    refine stops_attempt_bind (h g (by simp)) (fun _ => hrest) fun e he => ?_
    rw [collect_error, if_pos (show e.carriesStack = true from he)]
    exact stops_bind hrest fun _ => stops_pure _

theorem stops_passes {Q : Thrown → Prop} {gs : List (Generator σ)}
    (h : ∀ g ∈ gs, Stops Thrown.Carries g.2) (n : Nat) (failures : List Thrown) :
    Stops Q (passes n gs failures) := by
  induction n generalizing gs failures with
  | zero => exact stops_pure _
  | succ n ih =>
    refine stops_bind_of (stops_onePass h) fun s r t hr => ?_
    have hsub := onePass_sublist gs (fun _ => True) s r t trivial hr
    exact stops_ite (stops_pure _) (ih (fun g hg => h g (hsub.subset hg)) _)

theorem stops_lazyLoader (h : ∀ g ∈ gs, Stops Thrown.Carries g) : Stops Unresolved (lazyLoader gs) := by
  refine stops_bind (stops_passes ?_ _ _) fun _ =>
    stops_ite (stops_pure _) (stops_fail ⟨_, _, rfl⟩)
  rintro ⟨i, g⟩ hg
  exact h g (List.of_mem_zip hg).2

end Loader

section Mappers

variable {W E : Type} [JsRecord E] {m : Mapper W E} {dest : Dest}

def Crud.Settles (c : Crud W E) : Prop :=
  (∀ e, Halts (c.createFn e)) ∧ Halts c.readFn ∧ (∀ e, Halts (c.updateFn e)) ∧
    ∀ e, Halts (c.deleteFn e)

omit [JsRecord E] in
theorem stops_rethrow {α : Type} (m : Mapper W E) (dest : Dest) (verb : String) (err : Thrown) :
    Stops Thrown.Carries (m.rethrow dest verb err : Prog (Context W E) Thrown α) := by
  unfold Mapper.rethrow
  cases err <;> exact stops_fail rfl

theorem stops_create (h : (m.crud dest).Settles) (e : E) :
    Stops Thrown.Carries (m.create dest e) :=
  stops_bind (stops_writes _) fun _ => stops_attempt_bind (h.1 e).stops
    (fun _ => stops_bind (stops_writes _) fun _ => stops_pure _)
    fun err _ => stops_bind (stops_writes _) fun _ => stops_rethrow m dest _ err

theorem stops_read (h : (m.crud dest).Settles) : Stops Thrown.Carries (m.read dest) :=
  stops_attempt_bind h.2.1.stops (fun _ => stops_writes _) fun err _ => stops_rethrow m dest _ err

theorem stops_update (h : (m.crud dest).Settles) (e : E) :
    Stops Thrown.Carries (m.update dest e) :=
  stops_attempt_bind (h.2.2.1 e).stops
    (fun _ => stops_bind (stops_writes _) fun _ => stops_pure _)
    fun err _ => stops_rethrow m dest _ err

omit [JsRecord E] in
theorem stops_delete (h : (m.crud dest).Settles) (e : E) :
    Stops Thrown.Carries (m.delete dest e) :=
  stops_attempt_bind (h.2.2.2 e).stops (fun _ => stops_writes _)
    fun err _ => stops_rethrow m dest _ err

end Mappers

-- what getChangesAfterCommitStartedByEntity and getChangesByEntity throw of their own accord
inductive Refused : Thrown → Prop
  | upgrading : Refused (.error "Cannot apply a change while upgrading")
  | unsupported (v : String) :
    Refused (.error s!"Unsupported version {v}. Please upgrade or replace this database.")
  | missing : Refused (.error "TypeError")

section Around

variable {W E : Type} {Q : Thrown → Prop}

def Around (Q : Thrown → Prop) (e : Thrown) : Prop := Q e ∨ Refused e

-- every call comes back, and those that are not the mappers' throw only Q
structure CallsSettle (Q : Thrown → Prop) (env : Env W E) (mods : List (Module W E)) : Prop where
  createConn : Stops Q env.createConn
  dropConn : ∀ orm, Stops Q (env.dropConn orm)
  roundTrip : Stops Q env.roundTrip
  upgrading : Stops Q env.upgrading
  versionString : Stops Q env.versionString
  changedEntities : ∀ mod ∈ env.allModules ++ mods, ∀ m ∈ mod.mappers, ∀ c,
    Stops Q (m.changedEntities c)
  crud : ∀ mod ∈ mods, ∀ m ∈ mod.mappers, ∀ dest, (m.crud dest).Settles

theorem stops_changesOfRecord (c : IasqlAuditLog) {ms : List (Mapper W E)}
    (h : ∀ m ∈ ms, Stops Q (m.changedEntities c)) (changes : ChangeSet E) :
    Stops Q (changesOfRecord c ms changes) := by
  induction ms generalizing changes with
  | nil => exact stops_pure _
  | cons m ms ih => exact stops_bind (h m (by simp)) fun _ => ih (fun x hx => h x (by simp [hx])) _

theorem stops_getChangesByEntity {mods : List (Module W E)}
    (h : ∀ mod ∈ mods, ∀ m ∈ mod.mappers, ∀ c, Stops Q (m.changedEntities c))
    (changesToCommit : List IasqlAuditLog) :
    Stops (Around Q) (getChangesByEntity changesToCommit (indexModsByTable mods)) := by
  unfold getChangesByEntity
  generalize (fun _ => [] : ChangeSet E) = changes
  induction changesToCommit generalizing changes with
  | nil => exact stops_pure _
  | cons c cs ih =>
    rw [changesOfRecords]
    split
    · exact stops_fail (.inr .missing)
    · next mod hmod =>
      have hmem : mod ∈ mods := (indexModsByTable_mem hmod).1
      refine stops_bind ((stops_changesOfRecord c ?_ changes).mono fun _ => .inl) ih
      exact fun m hm => h mod hmem m (entityMappers_subset mod hm) c

theorem stops_onStore {α : Type} {p : Prog (Store W) Thrown α} (h : Stops Q p) :
    Stops Q (onStore p : Prog (Engine W E) Thrown α) := by
  unfold onStore onCtx
  exact stops_within (stops_within h _ _) _ _

theorem stops_present (mods : List (Option (Module W E))) : Stops (Around Q) (present mods) := by
  induction mods with
  | nil => exact stops_pure _
  | cons o mods ih =>
    cases o with
    | none => exact stops_fail (.inr .missing)
    | some m => exact stops_bind ih fun _ => stops_pure _

variable {env : Env W E} {mods : List (Module W E)} (force : Bool)

theorem stops_getImportedModules (h : CallsSettle Q env mods) (versionString : String) :
    Stops (Around Q) (getImportedModules env force versionString) := by
  refine stops_ite (stops_fail (.inr (.unsupported _))) ?_
  refine stops_bind (stops_onStore (h.upgrading.mono fun _ => .inl)) fun _ => ?_
  exact stops_ite (stops_fail (.inr .upgrading)) (stops_pure _)

theorem stops_getChangesAfterCommitStartedByEntity (h : CallsSettle Q env mods) :
    Stops (Around Q) (getChangesAfterCommitStartedByEntity env force) := by
  have htrip : Stops (Around Q) (onStore env.roundTrip : Prog (Engine W E) Thrown Unit) :=
    stops_onStore (h.roundTrip.mono fun _ => .inl)
  refine stops_bind (stops_reads _) fun _ => ?_
  refine stops_bind (stops_bind htrip fun _ => stops_reads _) fun changesAfterCommit => ?_
  refine stops_bind (stops_onStore (h.versionString.mono fun _ => .inl)) fun _ => ?_
  refine stops_bind_of (stops_getImportedModules force h _) fun s imported t himported => ?_
  obtain rfl := getImportedModules_returned himported
  refine stops_bind (stops_bind htrip fun _ => stops_reads _) fun names => ?_
  refine stops_bind_of (stops_present _) fun s changed t hchanged => ?_
  refine stops_onStore (stops_getChangesByEntity (fun mod hmod => ?_) _)
  have hmem : some mod ∈ changed.map some := List.mem_map_of_mem hmod
  rw [← present_returned hchanged] at hmem
  exact h.changedEntities mod (List.mem_append_left _ (mem_getModulesWithChanges hmem))

end Around

section Turns

variable {W E : Type} [JsRecord E] {Q : Thrown → Prop} {env : Env W E} {force : Bool}
  {d : Direction W E} {mods : List (Module W E)} {dryRun : Bool}
  {changesToCommit : List IasqlAuditLog} {oldOrm : Option Nat}

def Halted (d : Direction W E) (e : Thrown) : Prop :=
  Unresolved e ∨ e = .depError d.halted none none

def Final (Q : Thrown → Prop) (d : Direction W E) (e : Thrown) : Prop := Halted d e ∨ Around Q e

omit [JsRecord E] in
theorem handled_settles (h : CallsSettle Q env mods) {m : Mapper W E} (hm : m ∈ handled d mods)
    (dest : Dest) : (m.crud dest).Settles := by
  obtain ⟨mod, hmod, hmem⟩ := List.mem_flatMap.mp (List.mem_filter.mp hm).1
  exact h.crud mod hmod m hmem dest

theorem stops_generators {records : List (DiffRecord W E)}
    (h : ∀ r ∈ records, ∀ dest, (r.mapper.crud dest).Settles) {g : Prog (Engine W E) Thrown Unit}
    (hg : g ∈ generators d records) : Stops Thrown.Carries g := by
  rcases List.mem_append.mp hg with hg | hg
  · obtain ⟨r, hr, hg⟩ := List.mem_flatMap.mp hg
    rcases List.mem_append.mp hg with hg | hg
    · obtain ⟨e, -, rfl⟩ := List.mem_map.mp hg
      exact stops_bind (stops_writes _) fun _ =>
        stops_bind (stops_within (stops_create (h r hr _) e) _ _) fun _ => stops_writes _
    · obtain ⟨ec, -, rfl⟩ := List.mem_map.mp hg
      exact stops_bind (stops_writes _) fun _ => stops_bind (stops_writes _) fun _ =>
        stops_bind (stops_within (stops_update (h r hr _) _) _ _) fun _ => stops_writes _
  · obtain ⟨r, hr, hg⟩ := List.mem_flatMap.mp hg
    obtain ⟨e, -, rfl⟩ := List.mem_map.mp hg
    exact stops_bind (stops_writes _) fun _ =>
      stops_within (stops_delete (h r (List.mem_reverse.mp hr) _) e) _ _

theorem stops_readSide (h : CallsSettle Q env mods) (dest : Dest) (known : ChangeSet E) :
    Stops (Final Q d) (readSide env force (handled d mods) dest known) := by
  refine stops_bind (stops_bind (stops_writes _) fun _ => stops_writes _) fun _ => ?_
  refine stops_bind ((stops_lazyLoader fun g hg => ?_).mono fun e he => .inl (.inl he)) fun _ => ?_
  · obtain ⟨m, hm, rfl⟩ := List.mem_map.mp hg
    exact stops_bind (stops_within (stops_read (handled_settles h hm dest)) _ _) fun _ =>
      stops_writes _
  · cases dest with
    | cloud => exact stops_pure _
    | db =>
      exact stops_bind ((stops_getChangesAfterCommitStartedByEntity force h).mono fun _ => .inr)
        fun _ => stops_bind (stops_writes _) fun _ => stops_pure _

omit [JsRecord E] in
theorem stops_chooseFilter (h : CallsSettle Q env mods) (changes : ChangeSet E) :
    Stops (Final Q d) (chooseFilter changesToCommit (indexModsByTable mods) changes) := by
  refine stops_ite (stops_pure _) ?_
  refine stops_bind (stops_onStore ?_) fun _ => stops_bind (stops_writes _) fun _ => stops_pure _
  refine (stops_getChangesByEntity (fun mod hmod => ?_) changesToCommit).mono fun _ => .inr
  exact h.changedEntities mod (List.mem_append_right _ hmod)

omit [JsRecord E] in
theorem stops_finish (h : CallsSettle Q env mods) : Stops (Final Q d) (finish env oldOrm) :=
  stops_bind (stops_reads _) fun orm =>
    stops_bind (stops_onStore ((h.dropConn orm).mono fun _ he => .inr (.inl he))) fun _ =>
      stops_writes _

theorem stops_act {records : List (DiffRecord W E)}
    (h : ∀ r ∈ records, ∀ dest, (r.mapper.crud dest).Settles) (l : Loop) :
    Stops (Final Q d) (act d l records) := by
  refine stops_ite (stops_fail (.inl (.inr rfl))) (stops_ite (stops_pure _) ?_)
  refine stops_attempt_bind (stops_lazyLoader fun g => stops_generators h)
    (fun _ => stops_pure _) fun e he => ?_
  exact stops_ite (stops_fail (.inl (.inl he))) (stops_pure _)

theorem stops_innerTurn (h : CallsSettle Q env mods) (known : ChangeSet E) (l : Loop) :
    Stops (Final Q d) (innerTurn env force d mods dryRun changesToCommit oldOrm known l) := by
  refine stops_bind (stops_readSide h _ known) fun changes => ?_
  refine stops_ite (stops_bind (stops_finish h) fun _ => stops_pure _) ?_
  refine stops_bind (stops_chooseFilter h changes) fun flt => ?_
  refine stops_bind_of (stops_bind (stops_reads _) fun _ =>
    stops_bind (stops_writes _) fun _ => stops_pure _) fun s records t hrecords => ?_
  refine stops_ite (stops_bind (stops_finish h) fun _ =>
    stops_bind (stops_reads _) fun _ => stops_pure _) (stops_act (fun r hr dest => ?_) l)
  cases hrecords
  obtain ⟨m, hm, rfl⟩ := List.mem_map.mp hr
  exact handled_settles h hm dest

end Turns

section Loops

variable {W E : Type} [JsRecord E] (env : Env W E) (force : Bool) (d : Direction W E)
  (mods : List (Module W E)) (dryRun : Bool) (changesToCommit : List IasqlAuditLog)
  (oldOrm : Option Nat)

def loops : Nested (Engine W E) Thrown (ChangeSet E) Loop Plan where
  enter := readSide env force (handled d mods) d.truth fun _ => []
  reset l := { l with ranFullUpdate := false }
  turn := innerTurn env force d mods dryRun changesToCommit oldOrm
  resume := Loop.ranFullUpdate

theorem outerTurn_eq (fuel : Nat) :
    outerTurn env force d mods dryRun changesToCommit oldOrm fuel =
      (loops env force d mods dryRun changesToCommit oldOrm).outerTurn fuel := by
  funext l s
  refine bind_congr_apply (fun known t => bind_congr_apply (fun left u => ?_) t) s
  cases left <;> rfl

def opened : Prog (Engine W E) Thrown (Option Nat) := do
  let oldOrm ← Prog.reads fun s => s.ctx.orm
  let orm ← onStore env.createConn
  modifyCtx fun ctx => { ctx with orm := some orm }
  return oldOrm

theorem reconcile_eq (fuel : Nat) (s : Engine W E) :
    reconcile env force d mods dryRun changesToCommit fuel s =
      (opened env >>= fun oldOrm =>
        doWhile ((loops env force d mods dryRun changesToCommit oldOrm).outerTurn fuel) fuel {} >>=
          afterOuter env oldOrm) s := by
  simp only [opened, reconcile, outerTurn_eq]
  rw [bind_assoc_apply]
  refine bind_congr_apply (fun oldOrm t => ?_) s
  rw [bind_assoc_apply]
  refine bind_congr_apply (fun orm u => ?_) t
  rw [bind_assoc_apply]
  rfl

end Loops

section Advancing

variable {W E : Type}

def Loop.counts (l : Loop) : Int × Int × Int := (l.dbCount, l.cloudCount, l.bothCount)

-- a round that counts what the last one did brings the loops nearer to giving up
structure Advances (l l' : Loop) : Prop where
  bounded : l'.spinCount ≠ 4
  slow : l'.spinCount ≤ l.spinCount + 1
  still : l.counts = l'.counts → l'.spinCount = l.spinCount + 1

theorem spin_advances (l : Loop) (records : List (DiffRecord W E))
    (h : (spin l records).spinCount ≠ 4) : Advances l (spin l records) := by
  refine ⟨h, ?_, ?_⟩
  · unfold spin
    simp only
    split <;> simp
  · unfold spin Loop.counts
    simp only
    split
    · exact fun _ => rfl
    · next hcounts =>
      intro heq
      simp only [Prod.mk.injEq] at heq
      exact absurd heq hcounts

variable [JsRecord E] {d : Direction W E} {records : List (DiffRecord W E)} {l l' : Loop}
  {s t : Engine W E} {turn : Turn Loop Plan}

def Onto (turn : Turn Loop Plan) (l : Loop) : Prop := turn = .again l ∨ turn = .leave l

theorem act_advances (h : act d l records s = (.returned turn, t)) (hturn : Onto turn l') :
    Advances l l' := by
  unfold act at h
  split at h
  · cases h
  · next hspin =>
    have hadv := spin_advances l records hspin
    split at h
    · cases h
      rcases hturn with heq | heq <;> cases heq
      exact hadv
    · obtain ⟨o, u, -, hrest⟩ := bind_returned_inv h
      rcases o with e | _
      · simp only at hrest
        split at hrest
        · cases hrest
        · cases hrest
          rcases hturn with heq | heq <;> cases heq
          exact ⟨hadv.bounded, hadv.slow, hadv.still⟩
      · cases hrest
        rcases hturn with heq | heq <;> cases heq
        exact ⟨hadv.bounded, hadv.slow, hadv.still⟩

variable {env : Env W E} {force : Bool} {mods : List (Module W E)} {dryRun : Bool}
  {changesToCommit : List IasqlAuditLog} {oldOrm : Option Nat} {known : ChangeSet E}

theorem innerTurn_advances
    (h : innerTurn env force d mods dryRun changesToCommit oldOrm known l s = (.returned turn, t))
    (hturn : Onto turn l') : Advances l l' := by
  obtain ⟨changes, u, -, h⟩ := bind_returned_inv h
  change (if _ then _ else _ : Prog (Engine W E) Thrown _) u = _ at h
  split at h
  · obtain ⟨_, v, -, h⟩ := bind_returned_inv h
    cases h
    rcases hturn with heq | heq <;> cases heq
  · obtain ⟨flt, v, -, h⟩ := bind_returned_inv h
    obtain ⟨records, w, -, h⟩ := bind_returned_inv h
    change (if _ then _ else _ : Prog (Engine W E) Thrown _) w = _ at h
    split at h
    · obtain ⟨_, x, -, h⟩ := bind_returned_inv h
      obtain ⟨plan, y, -, h⟩ := bind_returned_inv h
      cases h
      rcases hturn with heq | heq <;> cases heq
    · exact act_advances h hturn

theorem round_advances {p q : ChangeSet E × Loop × Engine W E}
    (h : (loops env force d mods dryRun changesToCommit oldOrm).round p = some q) :
    Advances p.2.1 q.2.1 := by
  unfold Nested.round at h
  split at h
  · next l' t hrun =>
    cases h
    exact innerTurn_advances hrun (.inl rfl)
  · next l' t hrun =>
    have hadv : Advances p.2.1 l' := innerTurn_advances hrun (.inr rfl)
    split at h
    · unfold Nested.start at h
      split at h
      · cases h
        exact ⟨hadv.bounded, hadv.slow, hadv.still⟩
      · cases h
    · cases h
  · cases h

end Advancing

section Swinging

variable {W E : Type}

abbrev EngineLoops (W E : Type) := Nested (Engine W E) Thrown (ChangeSet E) Loop Plan

abbrev Position (W E : Type) := ChangeSet E × Loop × Engine W E

-- the counts of the round before the m-th differ from those of the m-th
def ChangesAt (L : EngineLoops W E) (s : Engine W E) (m : Nat) : Prop :=
  ∃ p q, L.rounds {} s m = some p ∧ L.rounds {} s (m + 1) = some q ∧ p.2.1.counts ≠ q.2.1.counts

-- among any five rounds in a row there is one that counts what the round before it did not
def Swings (L : EngineLoops W E) (s : Engine W E) : Prop :=
  ∀ n, ∃ m, n ≤ m ∧ m < n + 4 ∧ ChangesAt L s m

variable {L : EngineLoops W E} {s : Engine W E}
  (hL : ∀ p q, L.round p = some q → Advances p.2.1 q.2.1)
  (hreset : ∀ l, (L.reset l).spinCount = l.spinCount)

theorem rounds_isSome_mono {n m : Nat} (h : (L.rounds {} s m).isSome = true) (hle : n ≤ m) :
    (L.rounds {} s n).isSome = true := by
  induction hle with
  | refl => exact h
  | step _ ih =>
    refine ih ?_
    rw [Nested.rounds_succ] at h
    exact Option.isSome_of_isSome_bind h

include hL

theorem rounds_still {n k : Nat} (h : ∀ m, (L.rounds {} s m).isSome = true)
    (hstill : ∀ m, n ≤ m → m < n + k → ¬ ChangesAt L s m) :
    ∃ p, L.rounds {} s (n + k) = some p ∧ k ≤ p.2.1.spinCount := by
  induction k with
  | zero =>
    obtain ⟨p, hp⟩ := Option.isSome_iff_exists.mp (h n)
    exact ⟨p, hp, Nat.zero_le _⟩
  | succ k ih =>
    obtain ⟨p, hp, hle⟩ := ih fun m hn hm => hstill m hn (by omega)
    obtain ⟨q, hq⟩ := Option.isSome_iff_exists.mp (h (n + k + 1))
    have hround : L.round p = some q := by
      rw [Nested.rounds_succ, hp] at hq
      exact hq
    have hsame : p.2.1.counts = q.2.1.counts := by
      by_contra hne
      exact hstill (n + k) (by omega) (by omega) ⟨p, q, hp, hq, hne⟩
    have hspin := (hL p q hround).still hsame
    exact ⟨q, hq, by omega⟩

include hreset

theorem rounds_spinCount {n : Nat} {p : Position W E} (h : L.rounds {} s n = some p) :
    p.2.1.spinCount < 4 := by
  induction n generalizing p with
  | zero =>
    change L.start {} s = some p at h
    unfold Nested.start at h
    split at h
    · cases h
      rw [hreset]
      decide
    · cases h
  | succ n ih =>
    rw [Nested.rounds_succ] at h
    obtain ⟨q, hq, hround⟩ := Option.bind_eq_some_iff.mp h
    have hlt := ih hq
    have hadv := hL q p hround
    have hslow := hadv.slow
    have hbounded := hadv.bounded
    omega

theorem endless_iff : (∀ n, (L.rounds {} s n).isSome = true) ↔ Swings L s := by
  constructor
  · intro h n
    by_contra hno
    have hstill : ∀ m, n ≤ m → m < n + 4 → ¬ ChangesAt L s m :=
      fun m hn hm hchange => hno ⟨m, hn, hm, hchange⟩
    obtain ⟨p, hp, hle⟩ := rounds_still hL h hstill
    have hlt := rounds_spinCount hL hreset hp
    omega
  · intro h n
    obtain ⟨m, hn, -, p, q, hp, -, -⟩ := h n
    exact rounds_isSome_mono (by rw [hp]; rfl) hn

end Swinging

section Endings

variable {W E : Type} [JsRecord E] {Q : Thrown → Prop} {env : Env W E} (force : Bool)
  (d : Direction W E) {mods : List (Module W E)} (dryRun : Bool)
  (changesToCommit : List IasqlAuditLog)

-- once the connection is open the loops swing for ever
def Restless (env : Env W E) (mods : List (Module W E)) (s : Engine W E) : Prop :=
  ∃ oldOrm t, opened env s = (.returned oldOrm, t) ∧
    Swings (loops env force d mods dryRun changesToCommit oldOrm) t

omit [JsRecord E] in
theorem stops_opened (h : CallsSettle Q env mods) : Stops Q (opened env) :=
  stops_bind (stops_reads _) fun _ => stops_bind (stops_onStore h.createConn) fun _ =>
    stops_bind (stops_writes _) fun _ => stops_pure _

omit [JsRecord E] in
theorem stops_afterOuter (h : CallsSettle Q env mods) (oldOrm : Option Nat) (left : Loop ⊕ Plan) :
    Stops (Final Q d) (afterOuter env oldOrm left) := by
  cases left with
  | inl l =>
    exact stops_bind (stops_reads _) fun _ => stops_bind (stops_finish h) fun _ => stops_pure _
  | inr plan => exact stops_pure _

variable (hcalls : CallsSettle Q env mods)

include hcalls

theorem loops_diverge_iff (oldOrm : Option Nat) (s : Engine W E) :
    (∀ fuel, (doWhile ((loops env force d mods dryRun changesToCommit oldOrm).outerTurn fuel) fuel
        {} s).1 = .diverged) ↔
      Swings (loops env force d mods dryRun changesToCommit oldOrm) s := by
  rw [Nested.diverges_iff (fun known l => (stops_innerTurn (d := d) hcalls known l).halts)
    (stops_readSide (d := d) hcalls _ _).halts]
  exact endless_iff (fun p q => round_advances) fun _ => rfl

theorem reconcile_diverges_iff (s : Engine W E) :
    (∀ fuel, (reconcile env force d mods dryRun changesToCommit fuel s).1 = .diverged) ↔
      Restless force d dryRun changesToCommit env mods s := by
  simp only [reconcile_eq]
  rcases hopened : opened env s with ⟨o, t⟩
  cases o with
  | returned oldOrm =>
    have hafter : ∀ fuel, ((doWhile ((loops env force d mods dryRun changesToCommit oldOrm).outerTurn
        fuel) fuel {} >>= afterOuter env oldOrm) t).1 = .diverged ↔ (doWhile
          ((loops env force d mods dryRun changesToCommit oldOrm).outerTurn fuel) fuel {} t).1 =
            .diverged :=
      fun fuel => bind_diverges_iff fun left => (stops_afterOuter d hcalls oldOrm left).halts
    simp only [bind_of_returned hopened, hafter, loops_diverge_iff force d dryRun changesToCommit hcalls]
    constructor
    · exact fun h => ⟨oldOrm, t, hopened, h⟩
    · rintro ⟨old, u, heq, h⟩
      rw [hopened] at heq
      cases heq
      exact h
  | thrown e =>
    refine iff_of_false (fun h => ?_) ?_
    · have h0 := h 0
      rw [bind_of_thrown hopened] at h0
      cases h0
    · rintro ⟨old, u, heq, -⟩
      rw [hopened] at heq
      cases heq
  | diverged => exact absurd (by rw [hopened]) ((stops_opened hcalls).halts s)

theorem reconcile_throws (fuel : Nat) :
    ThrowsOnly (Final Q d) (reconcile env force d mods dryRun changesToCommit fuel) := by
  have hinner : ∀ oldOrm known l, ThrowsOnly (Final Q d)
      (innerTurn env force d mods dryRun changesToCommit oldOrm known l) :=
    fun _ known l => (stops_innerTurn hcalls known l).throwsOnly
  refine throwsOnly_bind (stops_reads _).throwsOnly fun oldOrm => ?_
  refine throwsOnly_bind (stops_onStore (hcalls.createConn.mono fun _ he => .inr (.inl he))).throwsOnly
    fun orm => ?_
  refine throwsOnly_bind (stops_writes _).throwsOnly fun _ => throwsOnly_bind (throwsOnly_doWhile (fun l => ?_) _ _)
    fun left => (stops_afterOuter d hcalls oldOrm left).throwsOnly
  refine throwsOnly_bind (stops_readSide hcalls _ _).throwsOnly fun known =>
    throwsOnly_bind (throwsOnly_doWhile (hinner oldOrm known) _ _) fun left => Stops.throwsOnly ?_
  cases left with
  | inl l => exact stops_pure _
  | inr plan => exact stops_pure _

end Endings

section Pairs

-- a record of this cloud comes with another one, and goes with it
def pairedCrud : Crud (List String × List String) String where
  createFn e := do
    Prog.writes fun ctx =>
      { ctx with store := { ctx.store with world := (ctx.store.world.1, [e, "default"]) } }
    return [e]
  readFn := Prog.reads fun ctx => ctx.store.world.2
  updateFn e := pure [e]
  deleteFn _ := Prog.writes fun ctx =>
    { ctx with store := { ctx.store with world := (ctx.store.world.1, []) } }

def pairedMapper : Mapper (List String × List String) String :=
  { vpcMapper with cloud := pairedCrud }

def pairedTurn : Loop → Prog (Engine (List String × List String) String) Thrown (Turn Loop Plan) :=
  innerTurn (vpcEnv pairedMapper) false applyDirection [vpcModule pairedMapper] false [] none
    fun _ => []

def Beside (cloudRows : List String) (s : Engine (List String × List String) String) : Prop :=
  (∃ memo : Memo String, s.ctx.memoDb = Function.update memo "Vpc" [("a", "a")]) ∧
    s.ctx.store.world.2 = cloudRows

variable {s : Engine (List String × List String) String} {l : Loop}

theorem spin_of_dbCount {records : List (DiffRecord (List String × List String) String)}
    (h : l.dbCount ≠ (recordCount records).1) :
    (spin l records).dbCount = (recordCount records).1 ∧ (spin l records).spinCount ≠ 4 := by
  unfold spin
  simp only [h, false_and, if_false]
  exact ⟨trivial, by decide⟩

theorem pairedTurn_missing (hs : Beside [] s) (hl : l.dbCount ≠ 1) :
    ∃ l' t, pairedTurn l s = (.returned (.again l'), t) ∧ l'.dbCount = 1 ∧
      Beside ["a", "default"] t := by
  obtain ⟨⟨⟨⟨rows, cloudRows⟩, log⟩, memoDb, _, _, _, _⟩, _, _, _, _⟩ := s
  obtain ⟨⟨memo, hmemo⟩, hcloud⟩ := hs
  simp only at hmemo hcloud
  subst hmemo hcloud
  let records : List (DiffRecord (List String × List String) String) :=
    [⟨pairedMapper, ⟨["a"], [], []⟩⟩]
  obtain ⟨hcount, hspin⟩ := @spin_of_dbCount l records hl
  refine ⟨{ spin l records with ranFullUpdate := true }, ?_, ?_, hcount, ?_⟩
  rotate_left
  · change act applyDirection l records _ = _
    unfold act
    rw [if_neg hspin]
    rfl
  · exact ⟨⟨_, rfl⟩, rfl⟩

theorem pairedTurn_extra (hs : Beside ["a", "default"] s) (hl : l.dbCount ≠ 0) :
    ∃ l' t, pairedTurn l s = (.returned (.again l'), t) ∧ l'.dbCount = 0 ∧ Beside [] t := by
  obtain ⟨⟨⟨⟨rows, cloudRows⟩, log⟩, memoDb, _, _, _, _⟩, _, _, _, _⟩ := s
  obtain ⟨⟨memo, hmemo⟩, hcloud⟩ := hs
  simp only at hmemo hcloud
  subst hmemo hcloud
  let records : List (DiffRecord (List String × List String) String) :=
    [⟨pairedMapper, ⟨[], ["default"], []⟩⟩]
  obtain ⟨hcount, hspin⟩ := @spin_of_dbCount l records hl
  refine ⟨{ spin l records with ranFullUpdate := true }, ?_, ?_, hcount, ?_⟩
  rotate_left
  · change act applyDirection l records _ = _
    unfold act
    rw [if_neg hspin]
    rfl
  · exact ⟨⟨_, rfl⟩, rfl⟩

abbrev pairedLoops : EngineLoops (List String × List String) String :=
  loops (vpcEnv pairedMapper) false applyDirection [vpcModule pairedMapper] false [] none

-- what is missing from the cloud is created with a companion, which is deleted with what it came with
def Paired (p : Position (List String × List String) String) : Prop :=
  p.1 = (fun _ => []) ∧ ((Beside [] p.2.2 ∧ p.2.1.dbCount ≠ 1) ∨
    (Beside ["a", "default"] p.2.2 ∧ p.2.1.dbCount ≠ 0))

theorem round_of_again {p : Position (List String × List String) String} {l' : Loop}
    {t : Engine (List String × List String) String} (hknown : p.1 = fun _ => [])
    (h : pairedTurn p.2.1 p.2.2 = (.returned (.again l'), t)) :
    pairedLoops.round p = some (fun _ => [], l', t) := by
  obtain ⟨known, l, s⟩ := p
  obtain rfl : known = fun _ => [] := hknown
  unfold Nested.round
  rw [show pairedLoops.turn (fun _ => []) l s = (.returned (.again l'), t) from h]

theorem paired_round {p : Position (List String × List String) String} (h : Paired p) :
    ∃ q, pairedLoops.round p = some q ∧ Paired q := by
  obtain ⟨hknown, ⟨hs, hl⟩ | ⟨hs, hl⟩⟩ := h
  · obtain ⟨l', t, hturn, hcount, ht⟩ := pairedTurn_missing hs hl
    exact ⟨_, round_of_again hknown hturn, rfl, .inr ⟨ht, by simp [hcount]⟩⟩
  · obtain ⟨l', t, hturn, hcount, ht⟩ := pairedTurn_extra hs hl
    exact ⟨_, round_of_again hknown hturn, rfl, .inl ⟨ht, by simp [hcount]⟩⟩

theorem paired_rounds (hstart : ∃ p, pairedLoops.start {} s = some p ∧ Paired p) (n : Nat) :
    ∃ p, pairedLoops.rounds {} s n = some p ∧ Paired p := by
  induction n with
  | zero => exact hstart
  | succ n ih =>
    obtain ⟨p, hp, hpaired⟩ := ih
    obtain ⟨q, hq, hnext⟩ := paired_round hpaired
    exact ⟨q, by rw [Nested.rounds_succ, hp]; exact hq, hnext⟩

theorem vpcEnv_callsSettle (m : Mapper (List String × List String) String)
    (hcrud : ∀ dest, (m.crud dest).Settles) (hchanges : ∀ c, Stops (fun _ => False) (m.changedEntities c)) :
    CallsSettle (fun _ => False) (vpcEnv m) [vpcModule m] where
  createConn := stops_pure _
  dropConn _ := stops_pure _
  roundTrip := stops_pure _
  upgrading := stops_pure _
  versionString := stops_pure _
  changedEntities := by
    intro mod hmod m' hm' c
    obtain rfl : mod = vpcModule m := by simpa [vpcEnv, Env.reliable] using hmod
    obtain rfl : m' = m := by simpa [vpcModule] using hm'
    exact hchanges c
  crud := by
    intro mod hmod m' hm' dest
    obtain rfl : mod = vpcModule m := by simpa using hmod
    obtain rfl : m' = m := by simpa [vpcModule] using hm'
    exact hcrud dest

theorem settles_ofList (get : List String × List String → List String)
    (set : List String → List String × List String → List String × List String) :
    (Crud.ofList get set).Settles :=
  ⟨fun _ => halts_bind (halts_writes _) fun _ => halts_pure _, halts_reads _,
    fun _ => halts_pure _, fun _ => halts_writes _⟩

theorem settles_paired (dest : Dest) : (pairedMapper.crud dest).Settles := by
  cases dest with
  | db => exact settles_ofList Prod.fst fun rows w => (rows, w.2)
  | cloud =>
    exact ⟨fun _ => halts_bind (halts_writes _) fun _ => halts_pure _, halts_reads _,
      fun _ => halts_pure _, fun _ => halts_writes _⟩

def pairedStart : Engine (List String × List String) String :=
  (opened (vpcEnv pairedMapper) (vpcEngine ["a"] [] [])).2

theorem paired_start : ∃ p, pairedLoops.start {} pairedStart = some p ∧ Paired p := by
  refine ⟨(fun _ => [], {}, ?_), ?_, rfl, .inl ⟨?_, show ({} : Loop).dbCount ≠ 1 by decide⟩⟩
  rotate_left
  · rfl
  · exact ⟨⟨_, rfl⟩, rfl⟩

end Pairs

end Iasql
