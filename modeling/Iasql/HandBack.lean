import Iasql.Progress
import Mathlib.Algebra.GroupWithZero.Nat
import Mathlib.Algebra.Order.BigOperators.Group.List
import Mathlib.Algebra.Order.Group.Nat

namespace Iasql

open Program Prog

section Connections

variable {W E : Type}

-- the wrapper in the context and the connections that are open
def heldFrame (conns : Store W → List Nat) : Frame (Context W E) where
  rel c d := d.orm = c.orm ∧ conns d.store = conns c.store
  refl _ := ⟨rfl, rfl⟩
  trans h k := ⟨k.1.trans h.1, k.2.trans h.2⟩

structure MapperHolds (conns : Store W → List Nat) (m : Mapper W E) : Prop where
  create : ∀ dest e, (heldFrame conns).Keeps ((m.crud dest).createFn e)
  read : ∀ dest, (heldFrame conns).Keeps (m.crud dest).readFn
  update : ∀ dest e, (heldFrame conns).Keeps ((m.crud dest).updateFn e)
  delete : ∀ dest e, (heldFrame conns).Keeps ((m.crud dest).deleteFn e)
  changed : ∀ row, (Frame.ofField conns).Keeps (m.changedEntities row)

-- a wrapper opens a connection of its own and closes it, and nothing else opens or closes one or
-- puts another wrapper into the context
structure Connections (env : Env W E) (mods : List (Module W E)) (conns : Store W → List Nat) :
    Prop where
  opened : ∀ {st st' c}, env.createConn st = (.returned c, st') →
    c ∉ conns st ∧ conns st' = c :: conns st
  refused : ∀ {st st' e}, env.createConn st = (.thrown e, st') → conns st' = conns st
  dropped : ∀ {st st' c}, env.dropConn (some c) st = (.returned (), st') →
    conns st' = (conns st).erase c
  undropped : ∀ {st st' c e}, env.dropConn (some c) st = (.thrown e, st') → conns st' = conns st
  roundTrip : (Frame.ofField conns).Keeps env.roundTrip
  upgrading : (Frame.ofField conns).Keeps env.upgrading
  versionString : (Frame.ofField conns).Keeps env.versionString
  installed : ∀ mod ∈ env.allModules, ∀ m ∈ mod.mappers, MapperHolds conns m
  relevant : ∀ mod ∈ mods, ∀ m ∈ mod.mappers, MapperHolds conns m

end Connections

section Holding

variable {W E : Type} [JsRecord E] {conns : Store W → List Nat} {m : Mapper W E}

omit [JsRecord E] in
theorem putEntries_orm (ctx : Context W E) (dest : Dest) (name : String)
    (entries : List (String × E)) : (ctx.putEntries dest name entries).orm = ctx.orm := by
  cases dest <;> rfl

theorem memoOne_orm (dest : Dest) (ctx : Context W E) (e : E) :
    (m.memoOne dest ctx e).orm = ctx.orm := by
  unfold Mapper.memoOne
  simp only
  split <;> exact putEntries_orm ctx dest _ _

theorem memo_orm (dest : Dest) (ctx : Context W E) (es : List E) :
    (m.memo dest ctx es).orm = ctx.orm := by
  induction es generalizing ctx with
  | nil => rfl
  | cons e es ih => exact (ih (m.memoOne dest ctx e)).trans (memoOne_orm dest ctx e)

omit [JsRecord E] in
theorem holds_rethrow {α : Type} (dest : Dest) (verb : String) (err : Thrown) :
    (heldFrame conns).Keeps (m.rethrow dest verb err : Prog (Context W E) Thrown α) := by
  cases err <;> exact Frame.keeps_fail _

theorem holds_memo (dest : Dest) (es : List E) :
    (heldFrame conns).Keeps
      (Prog.writes fun ctx => m.memo dest ctx es : Prog (Context W E) Thrown Unit) :=
  fun c => ⟨memo_orm dest c es, congrArg conns (memo_store dest c es)⟩

omit [JsRecord E] in
theorem holds_unmemo (dest : Dest) (e : E) :
    (heldFrame conns).Keeps
      (Prog.writes fun ctx => m.unmemo dest ctx e : Prog (Context W E) Thrown Unit) :=
  fun c => ⟨putEntries_orm c dest _ _, congrArg conns (unmemo_store dest c e)⟩

namespace MapperHolds

variable (h : MapperHolds conns m)

include h

omit [JsRecord E] in
theorem keeps : MapperKeeps (Frame.ofField conns) m where
  create dest e c := (h.create dest e c).2
  read dest c := (h.read dest c).2
  update dest e c := (h.update dest e c).2
  delete dest e c := (h.delete dest e c).2
  changed := h.changed

theorem holds_create (dest : Dest) (e : E) : (heldFrame conns).Keeps (m.create dest e) := by
  refine Frame.keeps_bind (holds_memo dest _) fun _ => ?_
  refine Frame.keeps_bind (Frame.keeps_attempt (h.create dest e)) ?_
  rintro (err | out)
  · exact Frame.keeps_bind (holds_unmemo dest e) fun _ => holds_rethrow dest _ err
  · exact Frame.keeps_bind (holds_memo dest out) fun _ => Frame.keeps_pure _

theorem holds_read (dest : Dest) : (heldFrame conns).Keeps (m.read dest) := by
  refine Frame.keeps_bind (Frame.keeps_attempt (h.read dest)) ?_
  rintro (err | out)
  · exact holds_rethrow dest _ err
  · exact holds_memo dest out

theorem holds_update (dest : Dest) (e : E) : (heldFrame conns).Keeps (m.update dest e) := by
  refine Frame.keeps_bind (Frame.keeps_attempt (h.update dest e)) ?_
  rintro (err | out)
  · exact holds_rethrow dest _ err
  · exact Frame.keeps_bind (holds_memo dest out) fun _ => Frame.keeps_pure _

omit [JsRecord E] in
theorem holds_delete (dest : Dest) (e : E) : (heldFrame conns).Keeps (m.delete dest e) := by
  refine Frame.keeps_bind (Frame.keeps_attempt (h.delete dest e)) ?_
  rintro (err | _)
  · exact holds_rethrow dest _ err
  · exact holds_unmemo dest e

end MapperHolds

end Holding

section Rounds

variable {W E : Type} [JsRecord E] {env : Env W E} {mods : List (Module W E)}
  {conns : Store W → List Nat}

def engineFrame (conns : Store W → List Nat) : Frame (Engine W E) where
  rel s t := (heldFrame conns).rel s.ctx t.ctx
  refl s := (heldFrame conns).refl s.ctx
  trans := (heldFrame conns).trans

omit [JsRecord E] in
theorem holds_onCtx {α : Type} {p : Prog (Context W E) Thrown α} (h : (heldFrame conns).Keeps p) :
    (engineFrame conns).Keeps (onCtx p) := fun s => h s.ctx

omit [JsRecord E] in
theorem holds_onStore {α : Type} {p : Prog (Store W) Thrown α}
    (h : (Frame.ofField conns).Keeps p) : (engineFrame (E := E) conns).Keeps (onStore p) :=
  fun s => ⟨rfl, h s.ctx.store⟩

omit [JsRecord E] in
theorem holds_emit (ev : Event W E) : (engineFrame conns).Keeps (emit ev) :=
  fun _ => ⟨rfl, rfl⟩

omit [JsRecord E] in
theorem holds_overwrite (m : Mapper W E) (dest : Dest) (e : E) (f : E → E) :
    (engineFrame conns).Keeps (modifyCtx (overwrite m dest e f) : Prog (Engine W E) Thrown Unit) :=
  fun s => ⟨putEntries_orm s.ctx dest _ _, congrArg conns (putEntries_store s.ctx dest _ _)⟩

variable (h : Connections env mods conns) {force : Bool} {d : Direction W E}

include h

omit [JsRecord E] in
theorem handled_holds {m : Mapper W E} (hm : m ∈ handled d mods) : MapperHolds conns m := by
  obtain ⟨mod, hmod, hmem⟩ := List.mem_flatMap.mp (List.mem_filter.mp hm).1
  exact h.relevant mod hmod m hmem

omit [JsRecord E] in
theorem holds_getChangesAfterCommitStartedByEntity :
    (engineFrame conns).Keeps (getChangesAfterCommitStartedByEntity env force) := by
  refine Frame.keeps_bind (Frame.keeps_reads _) fun _ => ?_
  refine Frame.keeps_bind
    (Frame.keeps_bind (holds_onStore h.roundTrip) fun _ => Frame.keeps_reads _) fun _ => ?_
  refine Frame.keeps_bind (holds_onStore h.versionString) fun v => ?_
  have himported : (engineFrame conns).Keeps (getImportedModules env force v) :=
    Frame.keeps_ite (Frame.keeps_fail _) (Frame.keeps_bind (holds_onStore h.upgrading) fun _ =>
      Frame.keeps_ite (Frame.keeps_fail _) (Frame.keeps_pure _))
  refine Frame.keeps_bind_of himported fun s imported t hreturned => ?_
  obtain rfl := getImportedModules_returned hreturned
  refine Frame.keeps_bind (Frame.keeps_bind (holds_onStore h.roundTrip) fun _ =>
    Frame.keeps_reads _) (fun names => ?_) t
  have hpresent : ∀ os : List (Option (Module W E)), (engineFrame conns).Keeps (present os) := by
    intro os
    induction os with
    | nil => exact Frame.keeps_pure _
    | cons o os ih =>
      cases o with
      | none => exact Frame.keeps_fail _
      | some m => exact Frame.keeps_bind ih fun _ => Frame.keeps_pure _
  refine Frame.keeps_bind_of (hpresent _) fun s found t hfound => ?_
  refine holds_onStore (keeps_getChangesByEntity _ fun mod hmod => ?_) t
  have hmem : some mod ∈ found.map some := List.mem_map_of_mem hmod
  rw [← present_returned hfound] at hmem
  exact fun m hm => (h.installed mod (mem_getModulesWithChanges hmem) m hm).keeps

theorem holds_readSide (dest : Dest) (known : ChangeSet E) :
    (engineFrame conns).Keeps (readSide env force (handled d mods) dest known) := by
  have hflush : (engineFrame conns).Keeps (flush dest : Prog (Engine W E) Thrown Unit) :=
    Frame.keeps_bind (holds_emit _) fun _ s => by cases dest <;> exact ⟨rfl, rfl⟩
  refine Frame.keeps_bind hflush fun _ => Frame.keeps_bind (keeps_lazyLoader fun g hg => ?_) fun _ => ?_
  · obtain ⟨m, hm, rfl⟩ := List.mem_map.mp hg
    exact Frame.keeps_bind (holds_onCtx ((handled_holds h hm).holds_read dest)) fun _ =>
      holds_emit _
  · cases dest with
    | cloud => exact Frame.keeps_pure _
    | db => exact Frame.keeps_bind (holds_getChangesAfterCommitStartedByEntity h) fun _ =>
        Frame.keeps_bind (holds_emit _) fun _ => Frame.keeps_pure _

omit [JsRecord E] in
theorem holds_chooseFilter (rows : List IasqlAuditLog) (changes : ChangeSet E) :
    (engineFrame conns).Keeps (chooseFilter rows (indexModsByTable mods) changes) := by
  refine Frame.keeps_ite (Frame.keeps_pure _) ?_
  refine Frame.keeps_bind (holds_onStore (keeps_getChangesByEntity rows ?_)) fun _ =>
    Frame.keeps_bind (holds_emit _) fun _ => Frame.keeps_pure _
  exact fun mod hmod m hm => (h.relevant mod hmod m hm).keeps

omit h in
theorem holds_generators {records : List (DiffRecord W E)}
    (hm : ∀ r ∈ records, MapperHolds conns r.mapper) {g : Prog (Engine W E) Thrown Unit}
    (hg : g ∈ generators d records) : (engineFrame conns).Keeps g := by
  rcases List.mem_append.mp hg with hg | hg
  · obtain ⟨r, hr, hg⟩ := List.mem_flatMap.mp hg
    rcases List.mem_append.mp hg with hg | hg
    · obtain ⟨e, -, rfl⟩ := List.mem_map.mp hg
      exact Frame.keeps_bind (holds_emit _) fun _ =>
        Frame.keeps_bind (holds_onCtx ((hm r hr).holds_create _ e)) fun _ =>
          holds_overwrite _ _ _ _
    · obtain ⟨ec, -, rfl⟩ := List.mem_map.mp hg
      exact Frame.keeps_bind (holds_overwrite _ _ _ _) fun _ =>
        Frame.keeps_bind (holds_emit _) fun _ =>
          Frame.keeps_bind (holds_onCtx ((hm r hr).holds_update _ _)) fun _ =>
            holds_overwrite _ _ _ _
  · obtain ⟨r, hr, hg⟩ := List.mem_flatMap.mp hg
    obtain ⟨e, -, rfl⟩ := List.mem_map.mp hg
    exact Frame.keeps_bind (holds_emit _) fun _ =>
      holds_onCtx ((hm r (List.mem_reverse.mp hr)).holds_delete _ e)

theorem holds_update_all (flt : Filter E) (ctx : Context W E) :
    (engineFrame conns).Keeps (lazyLoader (generators d (recordsOf (handled d mods) flt ctx))) := by
  refine keeps_lazyLoader fun g => holds_generators fun r hr => ?_
  obtain ⟨m, hmem, rfl⟩ := List.mem_map.mp hr
  exact handled_holds h hmem

end Rounds

section Turns

variable {W E : Type} [JsRecord E] (env : Env W E) (force : Bool) (d : Direction W E)
  (mods : List (Module W E)) (dryRun : Bool) (changesToCommit : List IasqlAuditLog)
  (oldOrm : Option Nat)

-- the spin guard throws, or the updates fail with as many left as the last time
inductive ActFails (l : Loop) (records : List (DiffRecord W E)) (s : Engine W E) : Prop
  | guard (spins : (spin l records).spinCount = 4)
  | stuck {e t} (spins : (spin l records).spinCount ≠ 4)
      (some : (generators d records).isEmpty = false)
      (run : lazyLoader (generators d records) s = (.thrown e, t))
      (same : (spin l records).failureCount = e.generatorsToRunLength)

-- the points of a turn at which it throws
inductive TurnFails (known : ChangeSet E) (l : Loop) (s : Engine W E) : Prop
  | read (h : Fails (readSide env force (handled d mods) d.target known) s)
  | dropIdle {changes t}
      (read : readSide env force (handled d mods) d.target known s = (.returned changes, t))
      (idle : (handled d mods).isEmpty = true) (h : Fails (finish env oldOrm) t)
  | lookUp {changes t}
      (read : readSide env force (handled d mods) d.target known s = (.returned changes, t))
      (busy : (handled d mods).isEmpty = false)
      (h : Fails (chooseFilter changesToCommit (indexModsByTable mods) changes) t)
  | dropDry {changes t flt u records v}
      (read : readSide env force (handled d mods) d.target known s = (.returned changes, t))
      (busy : (handled d mods).isEmpty = false)
      (lookUp : chooseFilter changesToCommit (indexModsByTable mods) changes t =
        (.returned flt, u))
      (compare : compareSides d (handled d mods) flt u = (.returned records, v))
      (dry : dryRun = true) (h : Fails (finish env oldOrm) v)
  | act {changes t flt u records v}
      (read : readSide env force (handled d mods) d.target known s = (.returned changes, t))
      (busy : (handled d mods).isEmpty = false)
      (lookUp : chooseFilter changesToCommit (indexModsByTable mods) changes t =
        (.returned flt, u))
      (compare : compareSides d (handled d mods) flt u = (.returned records, v))
      (wet : dryRun = false) (h : ActFails d l records v)

variable {env force d mods dryRun changesToCommit oldOrm}

theorem fails_act_iff {l : Loop} {records : List (DiffRecord W E)} {s : Engine W E} :
    Fails (act d l records) s ↔ ActFails d l records s := by
  unfold act
  dsimp only
  by_cases hspins : (spin l records).spinCount = 4
  · rw [if_pos hspins]
    exact iff_of_true ⟨_, _, rfl⟩ (.guard hspins)
  · rw [if_neg hspins]
    cases hsome : (generators d records).isEmpty with
    | true =>
      refine iff_of_false (not_fails_pure _) ?_
      rintro (hspins' | ⟨-, hsome', -⟩)
      · exact hspins hspins'
      · exact Bool.false_ne_true (hsome'.symm.trans hsome)
    | false =>
      simp only [Bool.false_eq_true, if_false]
      rw [fails_attempt_iff]
      constructor
      · rintro (⟨a, t, -, h⟩ | ⟨e, t, hrun, h⟩)
        · exact absurd h (not_fails_pure _)
        · dsimp only at h
          split at h
          · next hsame => exact .stuck hspins hsome hrun hsame
          · exact absurd h (not_fails_pure _)
      · rintro (hspins' | ⟨-, -, hrun, hsame⟩)
        · exact absurd hspins' hspins
        · refine .inr ⟨_, _, hrun, ?_⟩
          dsimp only
          rw [if_pos hsame]
          exact ⟨_, _, rfl⟩

theorem fails_innerTurn_iff {known : ChangeSet E} {l : Loop} {s : Engine W E} :
    Fails (innerTurn env force d mods dryRun changesToCommit oldOrm known l) s ↔
      TurnFails env force d mods dryRun changesToCommit oldOrm known l s := by
  have hthen : ∀ {t : Engine W E} {k : Unit → Prog (Engine W E) Thrown (Turn Loop Plan)},
      (∀ u, ¬ Fails (k ()) u) → (Fails (finish env oldOrm >>= k) t ↔ Fails (finish env oldOrm) t) := by
    intro t k hk
    rw [fails_bind_iff, or_iff_left]
    rintro ⟨a, u, -, h⟩
    exact hk u h
  have hplan : ∀ u : Engine W E,
      ¬ Fails (currentPlan env >>= fun plan => pure (Turn.quit plan : Turn Loop Plan)) u := by
    rintro u ⟨e, t, h⟩
    cases h
  unfold innerTurn
  rw [fails_bind_iff]
  constructor
  · rintro (hread | ⟨changes, t, hread, h⟩)
    · exact .read hread
    · cases hidle : (handled d mods).isEmpty with
      | true =>
        rw [if_pos hidle, hthen fun u => not_fails_pure _] at h
        exact .dropIdle hread hidle h
      | false =>
        rw [if_neg (by simp [hidle]), fails_bind_iff] at h
        rcases h with hlook | ⟨flt, u, hlook, h⟩
        · exact .lookUp hread hidle hlook
        · rcases fails_bind_iff.mp h with ⟨e, v, hcompare⟩ | ⟨records, v, hcompare, h⟩
          · cases hcompare
          · by_cases hdry : dryRun = true
            · rw [if_pos hdry, hthen hplan] at h
              exact .dropDry hread hidle hlook hcompare hdry h
            · rw [if_neg hdry, fails_act_iff] at h
              exact .act hread hidle hlook hcompare (Bool.not_eq_true _ ▸ hdry) h
  · rintro (hread | ⟨hread, hidle, h⟩ | ⟨hread, hbusy, h⟩ | ⟨hread, hbusy, hlook, hcompare, hdry, h⟩ |
      ⟨hread, hbusy, hlook, hcompare, hwet, h⟩)
    · exact .inl hread
    · refine .inr ⟨_, _, hread, ?_⟩
      rw [if_pos hidle, hthen fun u => not_fails_pure _]
      exact h
    · refine .inr ⟨_, _, hread, ?_⟩
      rw [if_neg (by simp [hbusy]), fails_bind_iff]
      exact .inl h
    · refine .inr ⟨_, _, hread, ?_⟩
      rw [if_neg (by simp [hbusy]), fails_bind_iff]
      refine .inr ⟨_, _, hlook, fails_bind_iff.mpr (.inr ⟨_, _, hcompare, ?_⟩)⟩
      rw [if_pos hdry, hthen hplan]
      exact h
    · refine .inr ⟨_, _, hread, ?_⟩
      rw [if_neg (by simp [hbusy]), fails_bind_iff]
      refine .inr ⟨_, _, hlook, fails_bind_iff.mpr (.inr ⟨_, _, hcompare, ?_⟩)⟩
      rw [if_neg (by simp [hwet]), fails_act_iff]
      exact h

end Turns

section States

variable {W E : Type} [JsRecord E] {env : Env W E} {mods : List (Module W E)}
  {conns : Store W → List Nat} {c : Nat} {before : List Nat} {oldOrm : Option Nat}
  {force dryRun : Bool} {d : Direction W E} {changesToCommit : List IasqlAuditLog}

-- the connection of the call is open, and the context has its wrapper
def Held (conns : Store W → List Nat) (c : Nat) (before : List Nat) (s : Engine W E) : Prop :=
  s.ctx.orm = some c ∧ conns s.ctx.store = c :: before

def Given (conns : Store W → List Nat) (oldOrm : Option Nat) (before : List Nat)
    (s : Engine W E) : Prop :=
  s.ctx.orm = oldOrm ∧ conns s.ctx.store = before

def Leaked (conns : Store W → List Nat) (c : Nat) (before : List Nat) (s : Engine W E) : Prop :=
  conns s.ctx.store = c :: before

omit [JsRecord E] in
theorem Held.of_rel {s t : Engine W E} (hs : Held conns c before s)
    (h : (engineFrame conns).rel s t) : Held conns c before t :=
  ⟨h.1.trans hs.1, h.2.trans hs.2⟩

omit [JsRecord E] in
theorem wp_held {α : Type} {p : Prog (Engine W E) Thrown α} (hp : (engineFrame conns).Keeps p)
    {s : Engine W E} (hs : Held conns c before s) :
    Wp p (fun _ => Held conns c before) (fun _ => Leaked conns c before) s :=
  wp_of_keeps hp (fun _ _ hrel => hs.of_rel hrel) fun _ _ hrel => (hs.of_rel hrel).2

-- what a turn of the inner loop leaves
def TurnState (conns : Store W → List Nat) (c : Nat) (before : List Nat) (oldOrm : Option Nat) :
    Turn Loop Plan → Engine W E → Prop
  | .quit _ => Given conns oldOrm before
  | _ => Held conns c before

variable (h : Connections env mods conns)

include h

omit [JsRecord E] in
theorem wp_finish {s : Engine W E} (hs : Held conns c before s) :
    Wp (finish env oldOrm) (fun _ => Given conns oldOrm before)
      (fun _ => Leaked conns c before) s := by
  refine wp_bind.mpr (wp_bind.mpr ?_)
  unfold Wp onStore onCtx Prog.within
  dsimp only
  rw [hs.1]
  rcases hdrop : env.dropConn (some c) s.ctx.store with ⟨o, st⟩
  cases o with
  | returned u =>
    refine ⟨rfl, ?_⟩
    change conns st = before
    rw [h.dropped hdrop, hs.2, List.erase_cons_head]
  | thrown e => exact (h.undropped hdrop).trans hs.2
  | diverged => trivial

theorem wp_act (l : Loop) (flt : Filter E) (ctx : Context W E) {s : Engine W E}
    (hs : Held conns c before s) :
    Wp (act d l (recordsOf (handled d mods) flt ctx)) (TurnState conns c before oldOrm)
      (fun _ => Leaked conns c before) s := by
  unfold act
  dsimp only
  rw [wp_ite]
  split
  · exact (wp_fail _).mpr hs.2
  · rw [wp_ite]
    split
    · exact (wp_pure _).mpr hs
    · refine wp_bind.mpr (wp_attempt.mpr (wp_of_keeps (holds_update_all h flt ctx)
        (fun _ t hrel => (wp_pure _).mpr (hs.of_rel hrel)) fun e t hrel => ?_))
      dsimp only
      rw [wp_ite]
      split
      · exact (wp_fail _).mpr (hs.of_rel hrel).2
      · exact (wp_pure _).mpr (hs.of_rel hrel)

theorem wp_innerTurn {known : ChangeSet E} {l : Loop} {s : Engine W E}
    (hs : Held conns c before s) :
    Wp (innerTurn env force d mods dryRun changesToCommit oldOrm known l)
      (TurnState conns c before oldOrm) (fun _ => Leaked conns c before) s := by
  refine wp_bind.mpr (wp_mono (wp_held (holds_readSide h _ _) hs) (fun changes t ht => ?_)
    fun _ _ => id)
  rw [wp_ite]
  split
  · refine wp_bind.mpr (wp_mono (wp_finish h ht) (fun _ u hu => ?_) fun _ _ => id)
    exact (wp_pure _).mpr hu
  · refine wp_bind.mpr (wp_mono (wp_held (holds_chooseFilter h _ _) ht) (fun flt u hu => ?_)
      fun _ _ => id)
    have hcompared : Held conns c before
        { u with crupdes := (recordsOf (handled d mods) flt u.ctx).foldl (planRecord d) u.crupdes } :=
      hu
    refine wp_bind.mpr ?_
    change Wp (if _ then _ else _ : Prog (Engine W E) Thrown (Turn Loop Plan)) _ _
      { u with crupdes := (recordsOf (handled d mods) flt u.ctx).foldl (planRecord d) u.crupdes }
    rw [wp_ite]
    split
    · exact wp_bind.mpr (wp_mono (wp_finish h hcompared) (fun _ _ hv => hv) fun _ _ => id)
    · exact wp_act h l flt u.ctx hcompared

theorem held_start {l : Loop} {s : Engine W E} {p : ChangeSet E × Loop × Engine W E}
    (hs : Held conns c before s)
    (hp : (loops env force d mods dryRun changesToCommit oldOrm).start l s = some p) :
    Held conns c before p.2.2 := by
  unfold Nested.start at hp
  split at hp
  · next known t henter =>
    obtain rfl := Option.some.inj hp
    have hread := wp_returned (wp_held (holds_readSide h d.truth _) hs) henter
    exact hread
  · cases hp

theorem held_round {p q : ChangeSet E × Loop × Engine W E} (hp : Held conns c before p.2.2)
    (hq : (loops env force d mods dryRun changesToCommit oldOrm).round p = some q) :
    Held conns c before q.2.2 := by
  have hturn : Wp (innerTurn env force d mods dryRun changesToCommit oldOrm p.1 p.2.1)
      (TurnState conns c before oldOrm) (fun _ => Leaked conns c before) p.2.2 :=
    wp_innerTurn h hp
  unfold Nested.round at hq
  split at hq
  · next b t hrun =>
    obtain rfl := Option.some.inj hq
    have hagain := wp_returned hturn hrun
    exact hagain
  · next b t hrun =>
    split at hq
    · have hleft := wp_returned hturn hrun
      exact held_start h hleft hq
    · cases hq
  · cases hq

theorem held_rounds {n : Nat} {s : Engine W E} {p : ChangeSet E × Loop × Engine W E}
    (hs : Held conns c before s)
    (hp : (loops env force d mods dryRun changesToCommit oldOrm).rounds {} s n = some p) :
    Held conns c before p.2.2 := by
  induction n generalizing p with
  | zero => exact held_start h hs hp
  | succ n ih =>
    rw [Nested.rounds_succ] at hp
    obtain ⟨q, hq, hround⟩ := Option.bind_eq_some_iff.mp hp
    exact held_round h (ih hq) hround

-- what the loops leave, however they end
def EndState (conns : Store W → List Nat) (c : Nat) (before : List Nat) (oldOrm : Option Nat) :
    Outcome Thrown (Loop ⊕ Plan) → Engine W E → Prop
  | .returned (.inl _) => Held conns c before
  | .returned (.inr _) => Given conns oldOrm before
  | _ => Leaked conns c before

theorem endState_of_leaves {s t : Engine W E} {o : Outcome Thrown (Loop ⊕ Plan)}
    (hs : Held conns c before s)
    (hleaves : (loops env force d mods dryRun changesToCommit oldOrm).Leaves {} s (o, t)) :
    EndState conns c before oldOrm o t := by
  have hturn : ∀ {n : Nat} {p : ChangeSet E × Loop × Engine W E},
      (loops env force d mods dryRun changesToCommit oldOrm).rounds {} s n = some p →
      Wp (innerTurn env force d mods dryRun changesToCommit oldOrm p.1 p.2.1)
        (TurnState conns c before oldOrm) (fun _ => Leaked conns c before) p.2.2 :=
    fun hp => wp_innerTurn h (held_rounds h hs hp)
  cases hleaves with
  | first enter =>
    have hread := wp_thrown (wp_held (holds_readSide h d.truth _) hs) enter
    exact hread
  | later hlater =>
    cases hlater with
    | thrown place turn =>
      have hthrown := wp_thrown (hturn place) turn
      exact hthrown
    | quit place turn =>
      have hquit := wp_returned (hturn place) turn
      exact hquit
    | left place turn done =>
      have hleft := wp_returned (hturn place) turn
      exact hleft
    | again place turn resume enter =>
      have hleft := wp_returned (hturn place) turn
      have hread := wp_thrown (wp_held (holds_readSide h d.truth _) hleft) enter
      exact hread

end States

section Breaks

variable {W E : Type} [JsRecord E] (env : Env W E) (force : Bool) (d : Direction W E)
  (mods : List (Module W E)) (dryRun : Bool) (changesToCommit : List IasqlAuditLog)

-- a step after the connection is open throws: the first read of the truth, something in a turn of
-- the inner loop, the next read of the truth, or the closing of the connection
inductive Breaks (oldOrm : Option Nat) (s : Engine W E) : Prop
  | first (h : Fails (readSide env force (handled d mods) d.truth fun _ => []) s)
  | turn {n p}
      (place : (loops env force d mods dryRun changesToCommit oldOrm).rounds {} s n = some p)
      (h : TurnFails env force d mods dryRun changesToCommit oldOrm p.1 p.2.1 p.2.2)
  | again {n p l t}
      (place : (loops env force d mods dryRun changesToCommit oldOrm).rounds {} s n = some p)
      (left : innerTurn env force d mods dryRun changesToCommit oldOrm p.1 p.2.1 p.2.2 =
        (.returned (.leave l), t))
      (more : l.ranFullUpdate = true)
      (h : Fails (readSide env force (handled d mods) d.truth fun _ => []) t)
  | close {n p l t}
      (place : (loops env force d mods dryRun changesToCommit oldOrm).rounds {} s n = some p)
      (left : innerTurn env force d mods dryRun changesToCommit oldOrm p.1 p.2.1 p.2.2 =
        (.returned (.leave l), t))
      (done : l.ranFullUpdate = false) (h : Fails (finish env oldOrm) t)

def Disturbed (s : Engine W E) : Prop :=
  ∃ oldOrm t, opened env s = (.returned oldOrm, t) ∧
    Breaks env force d mods dryRun changesToCommit oldOrm t

variable {env force d mods dryRun changesToCommit} {oldOrm : Option Nat} {s : Engine W E}

theorem breaks_iff : Breaks env force d mods dryRun changesToCommit oldOrm s ↔
    (∃ e t, (loops env force d mods dryRun changesToCommit oldOrm).Leaves {} s (.thrown e, t)) ∨
      ∃ l t, (loops env force d mods dryRun changesToCommit oldOrm).Leaves {} s
        (.returned (.inl l), t) ∧ Fails (finish env oldOrm) t := by
  constructor
  · rintro (⟨e, t, henter⟩ | ⟨place, h⟩ | ⟨place, left, more, e, u, henter⟩ |
      ⟨place, left, done, h⟩)
    · exact .inl ⟨e, t, .first henter⟩
    · obtain ⟨e, t, hturn⟩ := fails_innerTurn_iff.mpr h
      exact .inl ⟨e, t, .later (.thrown place hturn)⟩
    · exact .inl ⟨e, u, .later (.again place left more henter)⟩
    · exact .inr ⟨_, _, .later (.left place left done), h⟩
  · rintro (⟨e, t, hleaves⟩ | ⟨l, t, hleaves, h⟩)
    · cases hleaves with
      | first henter => exact .first ⟨e, t, henter⟩
      | later hlater =>
        cases hlater with
        | thrown place turn => exact .turn place (fails_innerTurn_iff.mp ⟨e, t, turn⟩)
        | again place turn resume enter => exact .again place turn resume ⟨e, t, enter⟩
    · cases hleaves with
      | later hlater =>
        cases hlater with
        | left place turn done => exact .close place turn done h

end Breaks

section HandBack

variable {W E : Type} [JsRecord E] {env : Env W E} {mods : List (Module W E)}
  {conns : Store W → List Nat}

def HandedBack (conns : Store W → List Nat) (s t : Engine W E) : Prop :=
  t.ctx.orm = s.ctx.orm ∧ ∀ c ∈ conns t.ctx.store, c ∈ conns s.ctx.store

omit [JsRecord E] in
theorem handedBack_of_given {s t : Engine W E}
    (h : Given conns s.ctx.orm (conns s.ctx.store) t) : HandedBack conns s t :=
  ⟨h.1, fun _ hc => h.2 ▸ hc⟩

omit [JsRecord E] in
theorem not_handedBack_of_leaked {s t : Engine W E} {c : Nat} (hfresh : c ∉ conns s.ctx.store)
    (h : Leaked conns c (conns s.ctx.store) t) : ¬ HandedBack conns s t := by
  rintro ⟨-, hall⟩
  exact hfresh (hall c (by rw [h]; exact List.mem_cons_self))

variable (h : Connections env mods conns) (force : Bool) (d : Direction W E) (dryRun : Bool)
  (changesToCommit : List IasqlAuditLog)

include h

omit [JsRecord E] in
theorem wp_opened (s : Engine W E) :
    Wp (opened env) (fun oldOrm t => oldOrm = s.ctx.orm ∧ ∃ c, c ∉ conns s.ctx.store ∧
        Held conns c (conns s.ctx.store) t)
      (fun _ t => Given conns s.ctx.orm (conns s.ctx.store) t) s := by
  refine wp_bind.mpr ((wp_reads _).mpr (wp_bind.mpr ?_))
  unfold Wp onStore onCtx Prog.within
  dsimp only
  rcases hopen : env.createConn s.ctx.store with ⟨o, st⟩
  cases o with
  | returned c =>
    obtain ⟨hfresh, hconns⟩ := h.opened hopen
    exact ⟨rfl, c, hfresh, rfl, hconns⟩
  | thrown e => exact ⟨rfl, h.refused hopen⟩
  | diverged => trivial

omit [JsRecord E] h in
theorem afterOuter_left (oldOrm : Option Nat) (l : Loop) (s : Engine W E) :
    afterOuter env oldOrm (.inl l) s = (finish env oldOrm >>= fun _ =>
      pure { rows := iasqlPlanV3 env.snakeCase s.crupdes }) s := by
  have hplan : currentPlan env s =
      (.returned { rows := iasqlPlanV3 env.snakeCase s.crupdes }, s) := rfl
  exact bind_of_returned hplan

-- once the connection is open, the loops and what comes after them
theorem rest_handsBack {s t : Engine W E} {c fuel : Nat} (hfresh : c ∉ conns s.ctx.store)
    (ht : Held conns c (conns s.ctx.store) t)
    (hends : ((doWhile ((loops env force d mods dryRun changesToCommit s.ctx.orm).outerTurn fuel)
      fuel {} >>= afterOuter env s.ctx.orm) t).1 ≠ .diverged) :
    HandedBack conns s ((doWhile ((loops env force d mods dryRun changesToCommit
        s.ctx.orm).outerTurn fuel) fuel {} >>= afterOuter env s.ctx.orm) t).2 ↔
      ¬ Breaks env force d mods dryRun changesToCommit s.ctx.orm t := by
  rcases hrun : doWhile ((loops env force d mods dryRun changesToCommit s.ctx.orm).outerTurn fuel)
    fuel {} t with ⟨o, u⟩
  have hleft : o ≠ .diverged → (loops env force d mods dryRun changesToCommit s.ctx.orm).Leaves {} t
      (o, u) := by
    intro ho
    have hends : (doWhile ((loops env force d mods dryRun changesToCommit
        s.ctx.orm).outerTurn fuel) fuel {} t).1 ≠ .diverged := by
      rw [hrun]
      exact ho
    have hleaves := Nested.doWhile_leaves hends
    rwa [hrun] at hleaves
  rw [breaks_iff]
  cases o with
  | diverged =>
    rw [bind_of_diverged hrun] at hends
    exact absurd rfl hends
  | thrown e =>
    have hleaves := hleft (by simp)
    rw [bind_of_thrown hrun]
    refine iff_of_false ?_ (not_not_intro (.inl ⟨e, u, hleaves⟩))
    exact not_handedBack_of_leaked hfresh (endState_of_leaves h ht hleaves)
  | returned r =>
    have hleaves := hleft (by simp)
    have hstate := endState_of_leaves h ht hleaves
    rw [bind_of_returned hrun]
    cases r with
    | inr plan =>
      refine iff_of_true (handedBack_of_given hstate) ?_
      rintro (⟨e, v, hthrown⟩ | ⟨l, v, hdone, -⟩)
      · cases Nested.leaves_unique hleaves hthrown
      · cases Nested.leaves_unique hleaves hdone
    | inl l =>
      have hfinish : Wp (finish env s.ctx.orm) (fun _ => Given conns s.ctx.orm
          (conns s.ctx.store)) (fun _ => Leaked conns c (conns s.ctx.store)) u :=
        wp_finish h hstate
      rw [bind_of_returned hrun] at hends
      rw [afterOuter_left] at hends ⊢
      rcases hclose : finish env s.ctx.orm u with ⟨o, v⟩
      cases o with
      | diverged =>
        rw [bind_of_diverged hclose] at hends
        exact absurd rfl hends
      | returned x =>
        have hgiven := wp_returned hfinish hclose
        rw [bind_of_returned hclose]
        refine iff_of_true (handedBack_of_given hgiven) ?_
        rintro (⟨e, w, hthrown⟩ | ⟨l', w, hdone, e, w', hfails⟩)
        · cases Nested.leaves_unique hleaves hthrown
        · cases Nested.leaves_unique hleaves hdone
          rw [hclose] at hfails
          cases hfails
      | thrown e =>
        have hleaked := wp_thrown hfinish hclose
        rw [bind_of_thrown hclose]
        refine iff_of_false ?_ (not_not_intro (.inr ⟨l, u, hleaves, e, v, hclose⟩))
        exact not_handedBack_of_leaked hfresh hleaked

theorem reconcile_handsBack (s : Engine W E) {fuel : Nat}
    (hends : (reconcile env force d mods dryRun changesToCommit fuel s).1 ≠ .diverged) :
    HandedBack conns s (reconcile env force d mods dryRun changesToCommit fuel s).2 ↔
      ¬ Disturbed env force d mods dryRun changesToCommit s := by
  have hopened := wp_opened h s
  rw [reconcile_eq] at hends ⊢
  rcases hrun : opened env s with ⟨o, t⟩
  cases o with
  | diverged =>
    rw [bind_of_diverged hrun] at hends
    exact absurd rfl hends
  | thrown e =>
    rw [bind_of_thrown hrun]
    have hgiven := wp_thrown hopened hrun
    refine iff_of_true (handedBack_of_given hgiven) ?_
    rintro ⟨oldOrm, u, hreturned, -⟩
    cases hrun.symm.trans hreturned
  | returned oldOrm =>
    obtain ⟨rfl, c, hfresh, hheld⟩ := wp_returned hopened hrun
    rw [bind_of_returned hrun] at hends ⊢
    rw [rest_handsBack h force d dryRun changesToCommit hfresh hheld hends, not_iff_not]
    constructor
    · exact fun hbreaks => ⟨_, t, hrun, hbreaks⟩
    · rintro ⟨oldOrm, u, hreturned, hbreaks⟩
      cases hrun.symm.trans hreturned
      exact hbreaks

end HandBack

section Leak

-- the world is the connections that are open
def wiredMapper (readDb : Prog (Context (List Nat) String) Thrown (List String)) :
    Mapper (List Nat) String where
  metadata := vpcMapper.metadata
  source := .db
  entityId := id
  equals _ _ := true
  updateOrReplace _ _ := .update
  db := ⟨fun e => pure [e], readDb, fun e => pure [e], fun _ => pure ()⟩
  cloud := ⟨fun e => pure [e], pure [], fun e => pure [e], fun _ => pure ()⟩
  changedEntities _ := pure []

def wiredModule (m : Mapper (List Nat) String) : Module (List Nat) String where
  name := "aws_vpc"
  version := "0.0.1"
  dependencies := []
  tables := ["vpc"]
  mappers := [m]

def wiredEnv (m : Mapper (List Nat) String) : Env (List Nat) String :=
  { Env.reliable { dbUser := "iasql", version := "0.0.1" } [wiredModule m] with
    createConn := fun st => (.returned (st.world.sum + 1),
      { st with world := (st.world.sum + 1) :: st.world })
    dropConn := fun orm st => match orm with
      | some c => (.returned (), { st with world := st.world.erase c })
      | none => (.thrown (.error "TypeError"), st) }

def wiredEngine : Engine (List Nat) String where
  ctx := { store := { world := [], auditLog := [] } }

theorem wired_connections {readDb : Prog (Context (List Nat) String) Thrown (List String)}
    (h : (heldFrame Store.world).Keeps readDb) :
    Connections (wiredEnv (wiredMapper readDb)) [wiredModule (wiredMapper readDb)] Store.world := by
  have hmapper : MapperHolds Store.world (wiredMapper readDb) := by
    refine ⟨fun dest e => ?_, fun dest => ?_, fun dest e => ?_, fun dest e => ?_,
      fun _ => Frame.keeps_pure _⟩
    · cases dest <;> exact Frame.keeps_pure _
    · cases dest with
      | db => exact h
      | cloud => exact Frame.keeps_pure _
    · cases dest <;> exact Frame.keeps_pure _
    · cases dest <;> exact Frame.keeps_pure _
  have hmodule : ∀ mod ∈ [wiredModule (wiredMapper readDb)], ∀ m ∈ mod.mappers,
      MapperHolds Store.world m := by
    intro mod hmod m hm
    obtain rfl := List.mem_singleton.mp hmod
    obtain rfl := List.mem_singleton.mp hm
    exact hmapper
  exact {
    opened := fun {st st' c} hopen => by
      cases hopen
      refine ⟨fun hmem => ?_, rfl⟩
      have hle := List.single_le_sum (fun _ _ => Nat.zero_le _) _ hmem
      omega
    refused := fun hopen => by cases hopen
    dropped := fun hdrop => by cases hdrop; rfl
    undropped := fun hdrop => by cases hdrop
    roundTrip := Frame.keeps_pure _
    upgrading := Frame.keeps_pure _
    versionString := Frame.keeps_pure _
    installed := hmodule
    relevant := hmodule }

end Leak

end Iasql
