import Iasql.Calculus.Dict
import Iasql.Turns

namespace Iasql

open Program Prog OrderedMap

section Reading

variable {W E : Type} [JsRecord E] {A : Realm W E} {d : Direction W E} {ms : List (Mapper W E)}
  {m : Mapper W E} {dest : Dest} {c : Context W E} {s : Engine W E}

def memoEntries (m : Mapper W E) (es : List E) : List (String × E) :=
  es.map fun e => (m.entityId e, e)

omit [JsRecord E] in
theorem putEntries_same (h : c.memo dest m.entityName = es) :
    c.putEntries dest m.entityName es = c := by
  subst h
  unfold Context.putEntries
  rw [Function.update_eq_self]
  cases dest <;> rfl

omit [JsRecord E] in
theorem putEntries_again {es es' : List (String × E)} :
    (c.putEntries dest m.entityName es).putEntries dest m.entityName es' =
      c.putEntries dest m.entityName es' := by
  cases dest <;> simp [Context.putEntries, Context.setMemo, Context.memo, Function.update_idem]

omit [JsRecord E] in
theorem putEntries_memo {es : List (String × E)} {name other : String} :
    (c.putEntries dest name es).memo dest other =
      Function.update (c.memo dest) name es other := by
  cases dest <;> rfl

-- rows of different identifiers are memoised as they come
theorem memo_eq {xs es : List E} (hc : c.memo dest m.entityName = memoEntries m xs)
    (hnodup : ((xs ++ es).map m.entityId).Nodup) :
    m.memo dest c es = c.putEntries dest m.entityName (memoEntries m (xs ++ es)) := by
  induction es generalizing xs c with
  | nil =>
    rw [List.append_nil]
    exact (putEntries_same hc).symm
  | cons e es ih =>
    have hfresh : m.entityId e ∉ keys (memoEntries m xs) := by
      intro hmem
      rw [List.map_append, List.map_cons] at hnodup
      refine (List.nodup_append.mp hnodup).2.2 _ ?_ _ List.mem_cons_self rfl
      simpa [keys, memoEntries] using hmem
    have hput : put (m.entityId e) e (memoEntries m xs) = memoEntries m (xs ++ [e]) := by
      rw [put_of_absent (find_eq_none.mpr hfresh)]
      simp [memoEntries]
    have hone : m.memoOne dest c e =
        c.putEntries dest m.entityName (memoEntries m (xs ++ [e])) := by
      unfold Mapper.memoOne
      simp only [hc, find_eq_none.mpr hfresh, hput]
    have hentries : (m.memoOne dest c e).memo dest m.entityName = memoEntries m (xs ++ [e]) := by
      rw [hone, putEntries_memo, Function.update_self]
    have hstep := ih hentries (by simpa using hnodup)
    rw [List.append_assoc] at hstep
    refine hstep.trans ?_
    rw [hone, putEntries_again]
    rfl

theorem readOne_run (hlegible : A.Legible d ms) (hm : m ∈ ms) (hsound : A.Sound s.ctx.store)
    (hempty : s.ctx.memo dest m.entityName = []) :
    readOne dest m s = (.returned (), { s with
      ctx := s.ctx.putEntries dest m.entityName
        (memoEntries m (A.rows dest m.entityName s.ctx.store.world))
      trace := s.trace ++ [.read dest m] }) := by
  have hread : m.read dest s.ctx = (.returned (), m.memo dest s.ctx
      (A.rows dest m.entityName s.ctx.store.world)) := by
    unfold Mapper.read
    rw [bind_of_returned (attempt_ok.mpr (hlegible.read m hm dest s.ctx hsound))]
    rfl
  have hnone : s.ctx.memo dest m.entityName = memoEntries m [] := hempty
  rw [memo_eq hnone (hlegible.distinct m hm dest _ hsound)] at hread
  unfold readOne
  rw [bind_of_returned (onCtx_returned s hread)]
  rfl

-- what a read of one side leaves, where some mappers have still to be read
structure Realm.Reading (A : Realm W E) (dest : Dest) (ms : List (Mapper W E)) (c : Context W E)
    (P : Set (Mapper W E)) (c' : Context W E) : Prop where
  listed : ∀ m ∈ P, m ∈ ms
  store : c'.store = c.store
  started : startedAt c' = startedAt c
  other : ∀ other, other ≠ dest → c'.memo other = c.memo other
  unread : ∀ m ∈ P, c'.memo dest m.entityName = []
  read : ∀ m ∈ ms, m ∉ P → c'.memo dest m.entityName =
    memoEntries m (A.rows dest m.entityName c.store.world)

theorem readOne_resolves (hlegible : A.Legible d ms) (hsound : A.Sound c.store) (dest : Dest) :
    Resolves (readOne dest) (fun P (s : Engine W E) => A.Reading dest ms c P s.ctx) (fun _ => 0)
      fun _ => False := by
  intro P m s hm h
  have hs : A.Sound s.ctx.store := h.store ▸ hsound
  refine .inl ⟨_, readOne_run hlegible (h.listed m hm) hs (h.unread m hm), ?_⟩
  refine ⟨fun m' hm' => h.listed m' hm'.1, (putEntries_store ..).trans h.store,
    (putEntries_startedAt ..).trans h.started, fun other hne => ?_, ?_, ?_⟩
  · exact (putEntries_memo_other hne.symm).trans (h.other other hne)
  · rintro m' ⟨hm', hne⟩
    have hname : m'.entityName ≠ m.entityName := fun heq =>
      hne (List.inj_on_of_nodup_map hlegible.names (h.listed m' hm') (h.listed m hm) heq)
    change (s.ctx.putEntries dest m.entityName _).memo dest m'.entityName = []
    rw [putEntries_memo, Function.update_of_ne hname]
    exact h.unread m' hm'
  · intro m' hm' hnot
    change (s.ctx.putEntries dest m.entityName _).memo dest m'.entityName = _
    by_cases heq : m' = m
    · subst heq
      rw [putEntries_memo, Function.update_self, h.store]
    · have hname : m'.entityName ≠ m.entityName := fun h' =>
        heq (List.inj_on_of_nodup_map hlegible.names hm' (h.listed m hm) h')
      rw [putEntries_memo, Function.update_of_ne hname]
      exact h.read m' hm' fun hP => hnot ⟨hP, heq⟩

theorem readAll_run (hlegible : A.Legible d ms) (hsound : A.Sound s.ctx.store)
    (hempty : s.ctx.memo dest = fun _ => []) :
    ∃ t, lazyLoader (ms.map (readOne dest)) s = (.returned (), t) ∧
      A.Reading dest ms s.ctx ∅ t.ctx := by
  have hstart : A.Reading dest ms s.ctx {m | m ∈ ms} s.ctx :=
    ⟨fun _ h => h, rfl, rfl, fun _ _ => rfl, fun m _ => by rw [hempty], fun m hm h => absurd hm h⟩
  obtain ⟨ys, t, -, hI, hnone, hrun⟩ := lazyLoader_resolves (readOne_resolves hlegible hsound dest)
    (fun _ _ h _ => h.elim) (hlegible.names.of_map _) hstart
  obtain rfl : ys = [] := List.eq_nil_iff_forall_not_mem.mpr hnone
  rcases hrun with ⟨-, hrun⟩ | ⟨hne, -⟩
  · refine ⟨t, hrun, ?_⟩
    simpa using hI
  · exact absurd rfl hne

end Reading

section Sides

variable {W E : Type} [JsRecord E] {A : Realm W E} {d : Direction W E} {ms : List (Mapper W E)}
  {m : Mapper W E} {dest : Dest} {c c' : Context W E} {s : Engine W E} {env : Env W E}
  {force : Bool} {v : Realm.View W E}

omit [JsRecord E] in
theorem onStore_returned {α : Type} {p : Prog (Store W) Thrown α} {a : α}
    (h : p s.ctx.store = (.returned a, s.ctx.store)) : onStore p s = (.returned a, s) := by
  unfold onStore onCtx Prog.within
  rw [h]

omit [JsRecord E] in
theorem changesAfterCommit_run (hcalm : A.Calm env (startedAt s.ctx))
    (hsound : A.Sound s.ctx.store) :
    getChangesAfterCommitStartedByEntity env force s = (.returned fun _ => [], s) := by
  have hlog : readLog env (fun log => getChangesAfterCommit env.cfg env.planner log
      (startedAt s.ctx)) s = (.returned [], s) := by
    unfold readLog
    rw [bind_of_returned (onStore_returned (hcalm.roundTrip _ hsound)),
      ← hcalm.unchanged _ hsound]
    rfl
  have himported : getImportedModules env force env.cfg.version s =
      (.returned env.allModules, s) := by
    unfold getImportedModules
    rw [if_neg (not_not.mpr rfl), bind_of_returned (onStore_returned (hcalm.upgrading _ hsound))]
    simp only [Bool.and_false, Bool.false_eq_true, if_false]
    rfl
  have hinstalled : findInstalledModules env s =
      (.returned (env.installedModules s.ctx.store), s) := by
    unfold findInstalledModules
    rw [bind_of_returned (onStore_returned (hcalm.roundTrip _ hsound))]
    rfl
  have hnone (imported installed : List (Module W E)) (names : List String) (version : String) :
      getModulesWithChanges imported installed names (tablesOf []) version = [] := by
    have hunaffected : (installed.filter fun mod =>
        mod.tables.any fun t => (tablesOf []).contains t) = [] := by simp [tablesOf, dedup]
    unfold getModulesWithChanges
    simp only [hunaffected]
    rfl
  unfold getChangesAfterCommitStartedByEntity
  rw [bind_of_returned (rfl : Prog.reads _ s = (.returned _, s)), bind_of_returned hlog,
    bind_of_returned (onStore_returned (hcalm.versionString _ hsound)), bind_of_returned himported,
    bind_of_returned hinstalled]
  simp only [hnone]
  rfl

theorem readSide_run (force : Bool) (hlegible : A.Legible d ms)
    (hcalm : A.Calm env (startedAt s.ctx)) (hsound : A.Sound s.ctx.store) (dest : Dest) :
    ∃ t, readSide env force ms dest (fun _ => []) s = (.returned fun _ => [], t) ∧
      A.Reading dest ms s.ctx ∅ t.ctx ∧ Quiet s t := by
  suffices h : ∃ t, readSide env force ms dest (fun _ => []) s = (.returned fun _ => [], t) ∧
      A.Reading dest ms s.ctx ∅ t.ctx by
    obtain ⟨t, hrun, hread⟩ := h
    have hquiet := keeps_readSide quietFrame env force ms dest (fun _ => []) s
    rw [hrun] at hquiet
    exact ⟨t, hrun, hread, hquiet⟩
  let u : Engine W E := { s with
    ctx := s.ctx.setMemo (fun _ => []) dest
    trace := s.trace ++ [.flush dest] }
  have hflush : flush dest s = (.returned (), u) := rfl
  have hmemo : u.ctx.memo dest = fun _ => [] := by cases dest <;> rfl
  obtain ⟨t, hrun, ht⟩ := readAll_run (s := u) hlegible
    (show A.Sound u.ctx.store by rwa [setMemo_store]) hmemo
  have hread : A.Reading dest ms s.ctx ∅ t.ctx := by
    refine ⟨fun _ h => h.elim, ht.store.trans (setMemo_store ..), ht.started.trans ?_,
      fun other hne => (ht.other other hne).trans ?_, fun _ h => h.elim, fun m hm h => ?_⟩
    · cases dest <;> rfl
    · cases dest <;> cases other <;> first | exact absurd rfl hne | rfl
    · rw [ht.read m hm h, setMemo_store]
  unfold readSide
  rw [bind_of_returned hflush, bind_of_returned hrun]
  cases dest with
  | cloud => exact ⟨t, rfl, hread⟩
  | db =>
    have hchanges : getChangesAfterCommitStartedByEntity env force t = (.returned fun _ => [], t) :=
      changesAfterCommit_run (hread.started ▸ hcalm) (hread.store ▸ hsound)
    refine ⟨{ t with trace := t.trace ++ [.changesAfterCommit fun _ => []] }, ?_, hread⟩
    simp only
    rw [bind_of_returned hchanges]
    rfl

omit [JsRecord E] in
theorem entities_of_read (h : A.Reading dest ms c ∅ c') (hm : m ∈ ms) :
    c'.entities dest m.entityName = A.rows dest m.entityName c'.store.world := by
  unfold Context.entities
  rw [h.read m hm id, h.store]
  simp [memoEntries, Function.comp_def]

-- a read of the target is not part of the view
omit [JsRecord E] in
theorem view_of_target (hd : d.truth ≠ d.target) (h : A.Reading d.target ms c ∅ c') :
    c'.view d = c.view d ∧ A.Beheld d ms c' := by
  refine ⟨?_, fun m hm i => ?_⟩
  · unfold Context.view
    rw [h.store, h.started, h.other _ hd]
  · rw [entities_of_read h hm]
    rfl

-- the truth has been read since it was changed
def Realm.Noted (A : Realm W E) (d : Direction W E) (ms : List (Mapper W E))
    (v : Realm.View W E) : Prop :=
  ∀ m ∈ ms, ∀ i, (A.cell d m v i).noted = (A.cell d m v i).truth

omit [JsRecord E] in
theorem noted_of_truth (h : A.Reading d.truth ms c ∅ c') : A.Noted d ms (c'.view d) := by
  intro m hm i
  change withId m.entityId (c'.entities d.truth m.entityName) i = _
  rw [entities_of_read h hm]
  rfl

omit [JsRecord E] in
theorem withId_sole {es : List E} {idGen : E → String} (h : (es.map idGen).Nodup) (i : String) :
    withId idGen es i = [] ∨ ∃ e, withId idGen es i = [e] := by
  induction es with
  | nil => exact .inl rfl
  | cons e es ih =>
    obtain ⟨hfresh, hnodup⟩ := List.nodup_cons.mp h
    rw [withId_cons]
    split
    · next he =>
      refine .inr ⟨e, congrArg _ (withId_eq_nil.mpr fun x hx hid => hfresh ?_)⟩
      rw [he, ← hid]
      exact List.mem_map_of_mem hx
    · exact ih hnodup

omit [JsRecord E] in
theorem inStep_of_noted (hlegible : A.Legible d ms) (hsound : A.Sound v.store)
    (h : A.Noted d ms v) : A.InStep d ms v := by
  intro m hm i
  have hnoted := h m hm i
  have hof (dest : Dest) := withId_sole (hlegible.distinct m hm dest v.store hsound) i
  have hid {dest : Dest} {e : E} (he : withId m.entityId (A.held dest m v) i = [e]) :
      m.entityId e = i := (mem_withId.mp (he ▸ List.mem_singleton_self e)).2
  rcases hof d.truth with ht | ⟨t, ht⟩ <;> rcases hof d.target with hr | ⟨r, hr⟩
  · exact .inl (.inl ⟨hnoted.trans ht, ht, hr⟩)
  · exact .inr ⟨.delete r, hid hr, hnoted.trans ht, ht, hr⟩
  · exact .inr ⟨.create t, hid ht, hnoted.trans ht, ht, hr⟩
  · by_cases hsame : d.same m t r = true
    · refine .inl (.inr ⟨t, r, ht, hr, hsame, ?_, ?_⟩)
      · rw [hnoted, show (A.cell d m v i).truth = [t] from ht]
        simp
      · rw [hnoted, show (A.cell d m v i).truth = [t] from ht]
        simpa using hsame
    · obtain ⟨ec, rfl, rfl⟩ : ∃ ec : E × E, d.truth.pick ec = t ∧ d.target.pick ec = r := by
        have hd := hlegible.sides
        revert hd
        cases d.truth <;> cases d.target
        · exact fun hd => absurd rfl hd
        · exact fun _ => ⟨(t, r), rfl, rfl⟩
        · exact fun _ => ⟨(r, t), rfl, rfl⟩
        · exact fun hd => absurd rfl hd
      exact .inr ⟨.update ec, hid ht, .inl (hnoted.trans ht), ht, hr, by simpa using hsame⟩

omit [JsRecord E] in
theorem plain_of_noted (h : A.Noted d ms v) : A.Plain d ms v := fun m hm _ hcalls =>
  (h m hm _).trans hcalls.2.1

omit [JsRecord E] in
theorem cell_of_truth (h : A.Reading d.truth ms c ∅ c') (hm : m ∈ ms) (i : String) :
    A.cell d m (c'.view d) i =
      { A.cell d m (c.view d) i with noted := (A.cell d m (c.view d) i).truth } := by
  have hstore : (c'.view d).store = (c.view d).store := h.store
  refine Cell.ext ((noted_of_truth h m hm i).trans ?_) ?_ ?_ <;>
    simp only [Realm.cell, Realm.held, hstore]

-- the sides hold the same, whatever is noted
def Realm.Alike (A : Realm W E) (d : Direction W E) (ms : List (Mapper W E))
    (v : Realm.View W E) : Prop :=
  ∀ m ∈ ms, ∀ i, (A.cell d m v i).truth = [] ∧ (A.cell d m v i).target = [] ∨
    ∃ t r, (A.cell d m v i).truth = [t] ∧ (A.cell d m v i).target = [r] ∧ d.same m t r = true

omit [JsRecord E] in
theorem Realm.Settled.alike (h : A.Settled d ms v) : A.Alike d ms v := by
  intro m hm i
  rcases h m hm i with ⟨-, ht, hr⟩ | ⟨t, r, ht, hr, hsame, -⟩
  · exact .inl ⟨ht, hr⟩
  · exact .inr ⟨t, r, ht, hr, hsame⟩

omit [JsRecord E] in
theorem alike_iff (hd : d.truth ≠ d.target) : A.Alike d ms (c.view d) ↔ ∀ m ∈ ms, ∀ i,
    withId m.entityId (A.held .db m (c.view d)) i = [] ∧
        withId m.entityId (A.held .cloud m (c.view d)) i = [] ∨
      ∃ x y, withId m.entityId (A.held .db m (c.view d)) i = [x] ∧
        withId m.entityId (A.held .cloud m (c.view d)) i = [y] ∧ m.equals x y = true := by
  refine forall_congr' fun m => forall_congr' fun _ => forall_congr' fun i => ?_
  simp only [Realm.cell, Direction.same]
  cases ht : d.truth <;> cases hr : d.target
  · exact absurd (ht.trans hr.symm) hd
  · exact Iff.rfl
  · refine or_congr and_comm ⟨?_, ?_⟩
    · rintro ⟨t, r, ht, hr, hsame⟩
      exact ⟨r, t, hr, ht, hsame⟩
    · rintro ⟨x, y, hx, hy, hsame⟩
      exact ⟨y, x, hy, hx, hsame⟩
  · exact absurd (ht.trans hr.symm) hd

-- what is the same one way is the same the other way
omit [JsRecord E] in
theorem alike_of_alike {d' : Direction W E} (hd : d.truth ≠ d.target) (hd' : d'.truth ≠ d'.target)
    (h : A.Alike d ms (c.view d)) : A.Alike d' ms (c.view d') :=
  (alike_iff hd').mpr ((alike_iff hd).mp h)

omit [JsRecord E] in
theorem settled_of_truth (h : A.Reading d.truth ms c ∅ c') (hs : A.Alike d ms (c.view d)) :
    A.Settled d ms (c'.view d) := by
  intro m hm i
  rw [cell_of_truth h hm]
  rcases hs m hm i with ⟨ht, hr⟩ | ⟨t, r, ht, hr, hsame⟩
  · exact .inl ⟨ht, ht, hr⟩
  · exact .inr ⟨t, r, ht, hr, hsame, by simp [ht], by simpa [ht] using hsame⟩

omit [JsRecord E] in
theorem trailing_of_truth (h : A.Reading d.truth ms c ∅ c') (hs : A.Trailing d ms (c.view d)) :
    A.Trailing d ms (c'.view d) := by
  intro m hm i
  rw [cell_of_truth h hm]
  rcases hs m hm i with (⟨-, ht, hr⟩ | ⟨t, r, ht, hr, hsame, -⟩) | ⟨e, hid, -, ht, hr⟩
  · exact .inl (.inl ⟨ht, ht, hr⟩)
  · exact .inl (.inr ⟨t, r, ht, hr, hsame, by simp [ht], by simpa [ht] using hsame⟩)
  · exact .inr ⟨e, hid, ht, ht, hr⟩

end Sides

end Iasql
