import Iasql.Install

namespace Iasql

open Program Prog

section Frames

variable {W E Schema α : Type} {env : InstallEnv W E Schema} {R : Frame Registry}
  {s t : Session Schema}

def sessionFrame (Schema : Type) (R : Frame Registry) : Frame (Session Schema) where
  rel s t := t.schema = s.schema ∧ R.rel s.registry t.registry
  refl _ := ⟨rfl, R.refl _⟩
  trans h k := ⟨k.1.trans h.1, R.trans h.2 k.2⟩

def sameRegistry : Frame Registry := Frame.ofField id

def growingRegistry : Frame Registry where
  rel r r' := r.iasqlModule ⊆ r'.iasqlModule
  refl _ := List.Subset.refl _
  trans h k := List.Subset.trans h k

def shrinkingRegistry : Frame Registry where
  rel r r' := r'.iasqlModule ⊆ r.iasqlModule ∧ r'.iasqlTables ⊆ r.iasqlTables
  refl _ := ⟨List.Subset.refl _, List.Subset.refl _⟩
  trans h k := ⟨List.Subset.trans k.1 h.1, List.Subset.trans k.2 h.2⟩

theorem ormCall_apply (f : Registry → α × Registry) (s : Session Schema) :
    ormCall env f s = match env.ormFault s.ormCalls with
      | some e => (.thrown e, { s with ormCalls := s.ormCalls + 1 })
      | none => (.returned (f s.registry).1,
          { s with registry := (f s.registry).2, ormCalls := s.ormCalls + 1 }) := by
  unfold ormCall
  rw [reads_bind_apply, writes_bind_apply]
  cases env.ormFault s.ormCalls <;> rfl

theorem ormCall_returned {f : Registry → α × Registry} {a : α}
    (h : ormCall env f s = (.returned a, t)) :
    a = (f s.registry).1 ∧ t.registry = (f s.registry).2 := by
  rw [ormCall_apply] at h
  split at h
  · cases h
  · cases h
    exact ⟨rfl, rfl⟩

theorem keeps_ormCall {f : Registry → α × Registry} (h : ∀ r, R.rel r (f r).2) :
    (sessionFrame Schema R).Keeps (ormCall env f) := by
  intro s
  rw [ormCall_apply]
  split
  · exact ⟨rfl, R.refl _⟩
  · exact ⟨rfl, h _⟩

theorem keepsOnThrow_ormCall (f : Registry → α × Registry) :
    (sessionFrame Schema R).KeepsOnThrow (ormCall env f) := by
  intro s e t h
  rw [ormCall_apply] at h
  split at h
  · cases h
    exact ⟨rfl, R.refl _⟩
  · cases h

theorem keeps_query (statements : Prog Schema Thrown Unit) :
    (sessionFrame Schema R).Keeps (query statements) := fun s => ⟨rfl, R.refl s.registry⟩

theorem keeps_runHook (hook : Hook Schema) : (sessionFrame Schema R).Keeps (runHook hook) := by
  cases hook with
  | none => exact Frame.keeps_pure ()
  | some statements => exact keeps_query statements

theorem mem_addIfNew {xs : List String} {x : String} : x ∈ addIfNew xs x := by
  unfold addIfNew
  split
  · assumption
  · simp

theorem subset_addIfNew (xs : List String) (x : String) : xs ⊆ addIfNew xs x := by
  unfold addIfNew
  split
  · exact List.Subset.refl _
  · exact List.subset_append_left _ _

end Frames

section Transactions

variable {W E Schema : Type} {env : InstallEnv W E Schema} {body : Prog (Session Schema) Thrown Unit}
  {s t : Session Schema} {e : Thrown}

def begun (s : Session Schema) : Session Schema := { s with transaction := some s.schema }

theorem commitTransaction_apply (s : Session Schema) : commitTransaction env s =
    match env.commitFault (s.transaction.getD s.schema) with
    | some e => (.thrown e, s)
    | none => (.returned (), { s with
        schema := s.transaction.getD s.schema, transaction := none }) := by
  unfold commitTransaction
  rw [reads_bind_apply]
  cases env.commitFault (s.transaction.getD s.schema) <;> rfl

theorem commitTransaction_thrown (h : commitTransaction env s = (.thrown e, t)) : t = s := by
  rw [commitTransaction_apply] at h
  split at h
  · cases h
    rfl
  · cases h

theorem inTransaction_eq : inTransaction env body s =
    ((body >>= fun _ => commitTransaction env).attempt >>= fun done => match done with
      | .ok _ => return ()
      | .error e => do
        rollbackTransaction
        Prog.fail e) (begun s) := rfl

theorem inTransaction_thrown : inTransaction env body s = (.thrown e, t) ↔
    ∃ u, (body >>= fun _ => commitTransaction env) (begun s) = (.thrown e, u) ∧
      t = { u with transaction := none } := by
  rw [inTransaction_eq]
  constructor
  · intro h
    rcases bind_thrown_inv h with hattempt | ⟨done, u, hattempt, hrest⟩
    · unfold attempt at hattempt
      split at hattempt <;> cases hattempt
    · rcases done with e' | _
      · cases hrest
        exact ⟨u, attempt_error.mp hattempt, rfl⟩
      · cases hrest
  · rintro ⟨u, hbody, rfl⟩
    rw [bind_of_returned (attempt_error.mpr hbody)]
    rfl

theorem rel_of_inTransaction_thrown {R : Frame Registry}
    (hbody : (sessionFrame Schema R).Keeps body)
    (h : inTransaction env body s = (.thrown e, t)) : (sessionFrame Schema R).rel s t := by
  obtain ⟨u, hrun, rfl⟩ := inTransaction_thrown.mp h
  have hkeep := hbody (begun s)
  rcases bind_thrown_inv hrun with hthrow | ⟨_, v, hreturn, hcommit⟩
  · rw [hthrow] at hkeep
    exact hkeep
  · rw [hreturn] at hkeep
    obtain rfl := commitTransaction_thrown hcommit
    exact hkeep

end Transactions

section Installs

variable {W E Schema : Type} (env : InstallEnv W E Schema)

structure Unchanged (s t : Session Schema) : Prop where
  tables : env.baseTables t.schema = env.baseTables s.schema
  registry : t.registry = s.registry

def Atomic (p : Prog (Session Schema) Thrown Unit) (s : Session Schema) : Prop :=
  ∀ e t, p s = (.thrown e, t) → Unchanged env s t

def Throws (p : Prog (Session Schema) Thrown Unit) (s : Session Schema) : Prop :=
  ∃ e t, p s = (.thrown e, t)

-- the steps of an installation after the first row of iasql_module is saved
def afterFirstSave (md : Module W E) (rest : List (Module W E)) :
    Prog (Session Schema) Thrown Unit := do
  provideTables env md
  Prog.each (installModule env) rest
  commitTransaction env

def InstallFailsEarly (moduleList : List String) (allModules force : Bool) (s : Session Schema) :
    Prop :=
  ∀ md rest, installOrder env moduleList allModules force s = (.returned (md :: rest), s) →
    ∀ t, registerModule env md (begun s) = (.returned (), t) → ¬ Throws (afterFirstSave env md rest) t

variable {env} {md : Module W E} {rest : List (Module W E)} {s t : Session Schema}
  {moduleList : List String} {allModules force : Bool}

def stillFrame (σ : Type) : Frame σ := Frame.ofField id

theorem still_throwWith (message : Option String) :
    (stillFrame (Session Schema)).Keeps (throwWith message) := by
  cases message with
  | none => exact Frame.keeps_pure ()
  | some message => exact Frame.keeps_fail _

theorem still_throwIf (b : Bool) (message : String) :
    (stillFrame (Session Schema)).Keeps (throwIf b message) :=
  Frame.keeps_ite (Frame.keeps_fail _) (Frame.keeps_pure ())

theorem still_ofOutcome {α : Type} (o : Outcome Thrown α) :
    (stillFrame (Session Schema)).Keeps (ofOutcome o) := by
  cases o with
  | returned a => exact Frame.keeps_pure a
  | thrown e => exact Frame.keeps_fail e
  | diverged => exact Frame.keeps_diverge

theorem still_sortedOrder (mods : List (Module W E)) (existingModules : List String) :
    (stillFrame (Session Schema)).Keeps (sortedOrder mods existingModules) := by
  unfold sortedOrder
  split
  · exact Frame.keeps_pure _
  · exact Frame.keeps_diverge

theorem still_installOrder (moduleList : List String) (allModules force : Bool) :
    (stillFrame (Session Schema)).Keeps (installOrder env moduleList allModules force) := by
  have hfind : ∀ registry, (stillFrame (Session Schema)).Keeps
      (findMods env registry moduleList allModules force) := by
    intro registry
    refine Frame.keeps_bind (still_throwIf _ _) fun _ => ?_
    refine Frame.keeps_bind (still_throwIf _ _) fun _ => ?_
    refine Frame.keeps_bind (still_throwIf _ _) fun _ => ?_
    exact still_ofOutcome _
  have horder : ∀ registry mods, (stillFrame (Session Schema)).Keeps
      (orderMods env registry mods) := by
    intro registry mods
    refine Frame.keeps_bind (Frame.keeps_reads _) fun tables => ?_
    refine Frame.keeps_bind (still_throwIf _ _) fun _ => ?_
    refine Frame.keeps_bind (Frame.keeps_reads _) fun committed => ?_
    exact Frame.keeps_bind (still_ofOutcome _) fun _ => still_sortedOrder _ _
  refine Frame.keeps_bind (Frame.keeps_reads _) fun registry => ?_
  refine Frame.keeps_bind (hfind registry) fun mods => ?_
  exact Frame.keeps_ite (Frame.keeps_pure _) (horder registry mods)

theorem returns_any {α : Type} (p : Prog (Session Schema) Thrown α) :
    Returns (fun _ => True) p fun _ _ => True := fun _ _ _ _ _ => trivial

theorem returns_ofOutcome {α : Type} (o : Outcome Thrown α) :
    Returns (fun _ : Session Schema => True) (ofOutcome o) fun a _ => o = .returned a := by
  rintro u a v - heq
  cases o <;> cases heq
  rfl

theorem fullName_of_find {n : String} {m : Module W E} (h : findModule env n = some m) :
    m.fullName = n := by
  rw [findModule, List.find?_eq_some_iff_append] at h
  exact eq_of_beq h.1

theorem mem_of_mapM_findModule {names : List String} {mods : List (Module W E)}
    (h : names.mapM (findModule env) = some mods) :
    ∀ m ∈ mods, ∃ n ∈ names, findModule env n = some m := by
  induction names generalizing mods with
  | nil =>
    cases h
    simp
  | cons n names ih =>
    rw [List.mapM_cons] at h
    simp only [Option.bind_eq_bind, Option.bind_eq_some_iff, Option.pure_def,
      Option.some.injEq] at h
    obtain ⟨m, hm, ms, hms, rfl⟩ := h
    intro m' hm'
    rcases List.mem_cons.mp hm' with rfl | hm'
    · exact ⟨n, List.mem_cons_self, hm⟩
    · obtain ⟨n', hn', hfind⟩ := ih hms m' hm'
      exact ⟨n', List.mem_cons_of_mem _ hn', hfind⟩

theorem mem_dedup {x : String} {xs : List String} : x ∈ dedup xs ↔ x ∈ xs := by
  have hfold : ∀ acc, x ∈ xs.foldl (fun acc x => if x ∈ acc then acc else acc ++ [x]) acc ↔
      x ∈ acc ∨ x ∈ xs := by
    induction xs with
    | nil => simp
    | cons y xs ih =>
      intro acc
      rw [List.foldl_cons, ih]
      split
      · next hy =>
        constructor
        · exact Or.imp_right (List.mem_cons_of_mem y)
        · rintro (hx | hx)
          · exact .inl hx
          · rcases List.mem_cons.mp hx with rfl | hx
            · exact .inl hy
            · exact .inr hx
      · simp [or_assoc]
  exact (hfold []).trans (by simp)

theorem missingDeps_new {mods : List (Module W E)} {names existing : List String} {d : String}
    (h : d ∈ missingDeps env mods names existing) : d ∉ existing := by
  rw [missingDeps, mem_dedup] at h
  simp only [List.mem_filter, List.mem_flatMap] at h
  obtain ⟨⟨m, -, -, hd⟩, -⟩ := h
  have hnew : d ∉ names ∧ d ∉ existing := by simpa using hd
  exact hnew.2

theorem attachDependencies_new {existing : List String} {fuel : Nat} {mods out : List (Module W E)}
    {names : List String} (hmods : ∀ m ∈ mods, m.fullName ∉ existing)
    (h : attachDependencies env existing fuel mods names = .returned out) :
    ∀ m ∈ out, m.fullName ∉ existing := by
  induction fuel generalizing mods names with
  | zero => cases h
  | succ fuel ih =>
    rw [attachDependencies] at h
    split at h
    · cases h
      exact hmods
    · split at h
      · cases h
      · next extraMods hextra =>
        refine ih ?_ h
        intro m hm
        rcases List.mem_append.mp hm with hm | hm
        · exact hmods m hm
        · obtain ⟨n, hn, hfind⟩ := mem_of_mapM_findModule hextra m hm
          rw [fullName_of_find hfind]
          exact missingDeps_new hn

theorem findMods_new {registry : Registry} : Returns (fun _ : Session Schema => True)
    (findMods env registry moduleList allModules force) fun mods _ =>
      ∀ m ∈ mods, m.fullName ∉ registry.iasqlModule := by
  refine returns_bind (returns_any _) fun _ => ?_
  refine returns_bind (returns_any _) fun _ => ?_
  refine returns_bind (returns_any _) fun _ => ?_
  refine (returns_ofOutcome _).mono (fun _ h => h) fun mods _ hmods => ?_
  refine attachDependencies_new ?_ hmods
  intro m hm
  simpa using (List.mem_filter.mp hm).2

theorem sortedOrder_subset {mods : List (Module W E)} {existingModules : List String} :
    Returns (fun _ : Session Schema => True) (sortedOrder mods existingModules) fun order _ =>
      ∀ m ∈ order, m ∈ mods := by
  unfold sortedOrder
  split
  · next sorted hsorted =>
    refine returns_pure fun _ _ m hm => ?_
    simpa using mem_of_sortLoop hsorted m hm
  · intro s order t _ heq
    cases heq

theorem orderMods_subset {registry : Registry} {mods : List (Module W E)} :
    Returns (fun _ : Session Schema => True) (orderMods env registry mods) fun order _ =>
      ∀ m ∈ order, m ∈ mods := by
  refine returns_bind (returns_any _) fun tables => ?_
  refine returns_bind (returns_any _) fun _ => ?_
  refine returns_bind (returns_any _) fun committed => ?_
  refine returns_bind (returns_any _) fun _ => ?_
  exact sortedOrder_subset

theorem installOrder_new : Returns (· = s) (installOrder env moduleList allModules force)
    fun order _ => ∀ m ∈ order, m.fullName ∉ s.registry.iasqlModule := by
  refine returns_bind (Q := fun registry _ => registry = s.registry)
    (returns_reads fun u hu => by rw [hu]) fun registry => ?_
  rintro u order v rfl heq
  obtain ⟨mods, w, hmods, horder⟩ := bind_returned_inv heq
  have hnew := findMods_new _ _ _ trivial hmods
  cases hempty : mods.isEmpty with
  | true =>
    simp only [hempty, ↓reduceIte] at horder
    cases horder
    simp
  | false =>
    simp only [hempty] at horder
    intro m hm
    exact hnew m (orderMods_subset _ _ _ trivial horder m hm)

theorem registerModule_throws : (sessionFrame Schema sameRegistry).KeepsOnThrow
    (registerModule env md) := by
  refine Frame.keepsOnThrow_bind (keeps_runHook _) fun _ => ?_
  refine Frame.keepsOnThrow_bind (keeps_runHook _) fun _ => ?_
  refine Frame.keepsOnThrow_bind (keeps_runHook _) fun _ => ?_
  refine Frame.keepsOnThrow_bind (Frame.keeps_gather fun dep _ => ?_) fun deps => ?_
  · exact keeps_ormCall fun _ => rfl
  · exact keepsOnThrow_ormCall _

theorem registerModule_registers : Returns (fun _ : Session Schema => True) (registerModule env md)
    fun _ t => md.fullName ∈ t.registry.iasqlModule := by
  refine returns_bind (returns_any _) fun _ => ?_
  refine returns_bind (returns_any _) fun _ => ?_
  refine returns_bind (returns_any _) fun _ => ?_
  refine returns_bind (returns_any _) fun deps => ?_
  intro s u t _ heq
  rw [(ormCall_returned heq).2]
  exact mem_addIfNew

theorem registerModule_grows : (sessionFrame Schema growingRegistry).Keeps
    (registerModule env md) := by
  refine Frame.keeps_bind (keeps_runHook _) fun _ => ?_
  refine Frame.keeps_bind (keeps_runHook _) fun _ => ?_
  refine Frame.keeps_bind (keeps_runHook _) fun _ => ?_
  refine Frame.keeps_bind (Frame.keeps_gather fun dep _ => ?_) fun deps => ?_
  · exact keeps_ormCall fun r => List.Subset.refl _
  · exact keeps_ormCall fun r => subset_addIfNew _ _

theorem provideTables_grows : (sessionFrame Schema growingRegistry).Keeps
    (provideTables env md) := by
  refine Frame.keeps_bind (Frame.keeps_each fun batch _ => ?_) fun _ => ?_
  · exact keeps_ormCall fun r => List.Subset.refl _
  · exact Frame.keeps_each fun table _ => keeps_query _

theorem commitTransaction_throws {R : Frame Registry} :
    (sessionFrame Schema R).KeepsOnThrow (commitTransaction env) := by
  intro s e t h
  obtain rfl := commitTransaction_thrown h
  exact ⟨rfl, R.refl _⟩

theorem afterFirstSave_throws : (sessionFrame Schema growingRegistry).KeepsOnThrow
    (afterFirstSave env md rest) := by
  refine Frame.keepsOnThrow_bind provideTables_grows fun _ => ?_
  refine Frame.keepsOnThrow_bind (Frame.keeps_each fun m _ => ?_) fun _ => commitTransaction_throws
  exact Frame.keeps_bind registerModule_grows fun _ => provideTables_grows

theorem installs_eq (s : Session Schema) :
    (each (installModule env) (md :: rest) >>= fun _ => commitTransaction env) s =
      (registerModule env md >>= fun _ => afterFirstSave env md rest) s := by
  calc (each (installModule env) (md :: rest) >>= fun _ => commitTransaction env) s
      = (installModule env md >>= fun _ => each (installModule env) rest >>= fun _ =>
          commitTransaction env) s := bind_assoc_apply _ _ _ s
    _ = (registerModule env md >>= fun _ => afterFirstSave env md rest) s :=
        bind_assoc_apply _ _ _ s

theorem install_eq {order : List (Module W E)}
    (h : installOrder env moduleList allModules force s = (.returned order, s)) :
    install env moduleList allModules force s =
      if order.isEmpty then (.returned (), s)
      else inTransaction env (each (installModule env) order) s := by
  rw [install, bind_of_returned h]
  split <;> rfl

theorem installs_grow (order : List (Module W E)) : (sessionFrame Schema growingRegistry).Keeps
    (each (installModule env) order) :=
  Frame.keeps_each fun _ _ => Frame.keeps_bind registerModule_grows fun _ => provideTables_grows

theorem install_atomic_iff : Atomic env (install env moduleList allModules force) s ↔
    InstallFailsEarly env moduleList allModules force s := by
  constructor
  · rintro h md rest horder t hregister ⟨e, u, hafter⟩
    have hthrow : install env moduleList allModules force s =
        (.thrown e, { u with transaction := none }) := by
      rw [install_eq horder]
      refine inTransaction_thrown.mpr ⟨u, ?_, rfl⟩
      rw [installs_eq, bind_of_returned hregister, hafter]
    have hsame := (h e _ hthrow).registry
    have hnew := installOrder_new s (md :: rest) s rfl horder md (by simp)
    have hsaved := registerModule_registers _ _ _ trivial hregister
    have hgrown := (afterFirstSave_throws t e u hafter).2 hsaved
    exact hnew (hsame ▸ hgrown)
  · intro h e t hthrow
    rcases bind_thrown_inv hthrow with horder | ⟨order, u, horder, -⟩
    · obtain rfl : t = s :=
        Frame.keepsOnThrow_of_keeps (still_installOrder moduleList allModules force) s e t horder
      exact ⟨rfl, rfl⟩
    · obtain rfl : u = s := by
        have hstill : (stillFrame (Session Schema)).Keeps (installOrder env moduleList allModules force) :=
          still_installOrder moduleList allModules force
        have hkeep := hstill s
        rw [horder] at hkeep
        exact hkeep
      rw [install_eq horder] at hthrow
      cases order with
      | nil => cases hthrow
      | cons md rest =>
        have hschema := (rel_of_inTransaction_thrown (installs_grow _) hthrow).1
        obtain ⟨v, hrun, rfl⟩ := inTransaction_thrown.mp hthrow
        rw [installs_eq] at hrun
        rcases bind_thrown_inv hrun with hregister | ⟨_, w, hregister, hafter⟩
        · have hsame := registerModule_throws _ e v hregister
          exact ⟨congrArg env.baseTables hschema, hsame.2⟩
        · exact absurd ⟨e, v, hafter⟩ (h md rest horder w hregister)

end Installs

section Uninstalls

variable {W E Schema : Type} (env : InstallEnv W E Schema)

-- up to the first call of the orm that deletes a row
def loseRows : String × List (String × String) → Prog (Session Schema) Thrown (Option String)
  | (e, []) => do
    removeTables env []
    removeModule env e
    return none
  | (e, mt) => do
    removeTables env mt
    return some e

def loseFirstRow (md : Module W E) : Prog (Session Schema) Thrown (Option String) :=
  detachModule env md >>= loseRows env

def finishRemoval : Option String → Prog (Session Schema) Thrown Unit
  | some e => removeModule env e
  | none => return ()

def afterFirstRemoval (left : Option String) (rest : List (Module W E)) :
    Prog (Session Schema) Thrown Unit := do
  finishRemoval env left
  Prog.each (uninstallModule env) rest
  commitTransaction env

def UninstallFailsEarly (moduleList : List String) (force : Bool) (s : Session Schema) : Prop :=
  ∀ md rest, uninstallOrder env moduleList force s = (.returned (md :: rest), s) →
    ∀ left t, loseFirstRow env md (begun s) = (.returned left, t) →
      ¬ Throws (afterFirstRemoval env left rest) t

variable {env} {md : Module W E} {rest : List (Module W E)} {s t : Session Schema}
  {moduleList : List String} {force : Bool}

def Lost (r r' : Registry) : Prop :=
  (∃ p ∈ r.iasqlTables, p ∉ r'.iasqlTables) ∨ ∃ m ∈ r.iasqlModule, m ∉ r'.iasqlModule

theorem Lost.shrink {r r' r'' : Registry} (h : Lost r r') (hs : shrinkingRegistry.rel r' r'') :
    Lost r r'' := by
  rcases h with ⟨p, hp, hnot⟩ | ⟨m, hm, hnot⟩
  · exact .inl ⟨p, hp, fun hmem => hnot (hs.2 hmem)⟩
  · exact .inr ⟨m, hm, fun hmem => hnot (hs.1 hmem)⟩

theorem Lost.ne {r r' : Registry} (h : Lost r r') : r' ≠ r := by
  rintro rfl
  rcases h with ⟨p, hp, hnot⟩ | ⟨m, hm, hnot⟩
  · exact hnot hp
  · exact hnot hm

theorem detachModule_keeps : (sessionFrame Schema sameRegistry).Keeps (detachModule env md) := by
  refine Frame.keeps_bind (Frame.keeps_each fun table _ => keeps_query _) fun _ => ?_
  refine Frame.keeps_bind (keeps_runHook _) fun _ => ?_
  refine Frame.keeps_bind (keeps_runHook _) fun _ => ?_
  refine Frame.keeps_bind (keeps_runHook _) fun _ => ?_
  refine Frame.keeps_bind (keeps_ormCall fun _ => rfl) fun found => ?_
  cases found with
  | nil => exact Frame.keeps_fail _
  | cons e es => exact Frame.keeps_bind (keeps_ormCall fun _ => rfl) fun mt => Frame.keeps_pure _

theorem detachModule_finds : Returns (fun _ : Session Schema => True) (detachModule env md)
    fun found t => found.1 = md.fullName ∧ found.1 ∈ t.registry.iasqlModule ∧
      found.2 = t.registry.iasqlTables.filter (·.1 == found.1) := by
  refine returns_bind (returns_any _) fun _ => ?_
  refine returns_bind (returns_any _) fun _ => ?_
  refine returns_bind (returns_any _) fun _ => ?_
  refine returns_bind (returns_any _) fun _ => ?_
  intro s found t _ heq
  obtain ⟨names, u, hnames, hrest⟩ := bind_returned_inv heq
  have hfound := ormCall_returned hnames
  cases names with
  | nil => cases hrest
  | cons e es =>
    obtain ⟨mt, v, hmt, hlast⟩ := bind_returned_inv hrest
    have htables := ormCall_returned hmt
    cases hlast
    have hfirst : e :: es = s.registry.iasqlModule.filter (· == md.fullName) := hfound.1
    have hmem : e ∈ s.registry.iasqlModule.filter (· == md.fullName) :=
      hfirst ▸ List.mem_cons_self
    have he : e ∈ u.registry.iasqlModule := by
      rw [hfound.2]
      exact (List.mem_filter.mp hmem).1
    rw [htables.2]
    exact ⟨eq_of_beq (List.mem_filter.mp hmem).2, he, htables.1⟩

theorem removal_shrinks (rows : List (String × String)) (name : String) :
    (sessionFrame Schema shrinkingRegistry).Keeps (removeTables env rows) ∧
      (sessionFrame Schema shrinkingRegistry).Keeps (removeModule env name) := by
  constructor
  · exact keeps_ormCall fun r => ⟨List.Subset.refl _, fun _ h => (List.mem_filter.mp h).1⟩
  · exact keeps_ormCall fun r => ⟨fun _ h => (List.mem_filter.mp h).1, List.Subset.refl _⟩

theorem same_shrinks {s t : Session Schema} (h : (sessionFrame Schema sameRegistry).rel s t) :
    (sessionFrame Schema shrinkingRegistry).rel s t := by
  have hsame : t.registry = s.registry := h.2
  refine ⟨h.1, ?_⟩
  rw [hsame]
  exact shrinkingRegistry.refl _

theorem uninstallModule_shrinks : (sessionFrame Schema shrinkingRegistry).Keeps
    (uninstallModule env md) := by
  refine Frame.keeps_bind (fun s => same_shrinks (detachModule_keeps s)) fun found => ?_
  exact Frame.keeps_bind (removal_shrinks found.2 found.1).1 fun _ => (removal_shrinks [] found.1).2

theorem detachModule_same {found : String × List (String × String)}
    (h : detachModule env md s = (.returned found, t)) : t.registry = s.registry := by
  have hkeep : (sessionFrame Schema sameRegistry).rel s (detachModule env md s).2 :=
    detachModule_keeps s
  rw [h] at hkeep
  exact hkeep.2

theorem loseFirstRow_throws : (sessionFrame Schema sameRegistry).KeepsOnThrow
    (loseFirstRow env md) := by
  refine Frame.keepsOnThrow_bind detachModule_keeps fun found => ?_
  obtain ⟨e, mt⟩ := found
  cases mt with
  | nil =>
    refine Frame.keepsOnThrow_bind (keeps_ormCall fun r => ?_) fun _ => ?_
    · simp [sameRegistry, Frame.ofField]
    · exact Frame.keepsOnThrow_bind_pure (keepsOnThrow_ormCall _)
  | cons p ps => exact Frame.keepsOnThrow_bind_pure (keepsOnThrow_ormCall _)

theorem loseFirstRow_loses {left : Option String}
    (h : loseFirstRow env md s = (.returned left, t)) : Lost s.registry t.registry := by
  obtain ⟨⟨e, mt⟩, u, hdetach, hrest⟩ := bind_returned_inv h
  have hfound : e ∈ u.registry.iasqlModule ∧ mt = u.registry.iasqlTables.filter (·.1 == e) :=
    (detachModule_finds _ _ _ trivial hdetach).2
  rw [detachModule_same hdetach] at hfound
  cases mt with
  | nil =>
    obtain ⟨_, v, -, hlast⟩ := bind_returned_inv hrest
    obtain ⟨_, w, hmodule, hnone⟩ := bind_returned_inv hlast
    cases hnone
    refine .inr ⟨e, hfound.1, fun hmem => ?_⟩
    rw [(ormCall_returned hmodule).2] at hmem
    simpa using (List.mem_filter.mp hmem).2
  | cons p ps =>
    obtain ⟨_, v, htables, hsome⟩ := bind_returned_inv hrest
    cases hsome
    have hin : p ∈ s.registry.iasqlTables := by
      have hp : p ∈ s.registry.iasqlTables.filter (·.1 == e) := hfound.2 ▸ List.mem_cons_self
      exact (List.mem_filter.mp hp).1
    refine .inl ⟨p, hin, fun hmem => ?_⟩
    rw [(ormCall_returned htables).2] at hmem
    have hout := (List.mem_filter.mp hmem).2
    simp at hout

theorem uninstallModule_eq (s : Session Schema) :
    uninstallModule env md s = (loseFirstRow env md >>= finishRemoval env) s := by
  let done (left : Option String) : Prog (Session Schema) Thrown (Option String) := pure left
  rw [loseFirstRow, bind_assoc_apply]
  refine bind_congr_apply ?_ s
  rintro ⟨e, mt⟩ u
  cases mt with
  | nil =>
    refine Eq.trans ?_ (bind_assoc_apply (removeTables env []) _ _ u).symm
    refine bind_congr_apply (fun _ v => ?_) u
    refine Eq.trans (bind_unit_apply _ v).symm ?_
    exact (bind_assoc_apply (removeModule env e) (fun _ => done none) (finishRemoval env) v).symm
  | cons p ps =>
    exact (bind_assoc_apply (removeTables env (p :: ps)) (fun _ => done (some e))
      (finishRemoval env) u).symm

theorem uninstalls_eq (s : Session Schema) :
    (each (uninstallModule env) (md :: rest) >>= fun _ => commitTransaction env) s =
      (loseFirstRow env md >>= fun left => afterFirstRemoval env left rest) s := by
  have hfirst : uninstallModule env md = loseFirstRow env md >>= finishRemoval env :=
    funext uninstallModule_eq
  calc (each (uninstallModule env) (md :: rest) >>= fun _ => commitTransaction env) s
      = ((loseFirstRow env md >>= finishRemoval env) >>= fun _ =>
          each (uninstallModule env) rest >>= fun _ => commitTransaction env) s := by
        rw [← hfirst]
        exact bind_assoc_apply _ _ _ s
    _ = (loseFirstRow env md >>= fun left => afterFirstRemoval env left rest) s :=
        bind_assoc_apply _ _ _ s

theorem still_uninstallOrder (moduleList : List String) (force : Bool) :
    (stillFrame (Session Schema)).Keeps (uninstallOrder env moduleList force) := by
  refine Frame.keeps_bind (still_throwIf _ _) fun _ => ?_
  refine Frame.keeps_bind (still_throwIf _ _) fun _ => ?_
  refine Frame.keeps_bind (Frame.keeps_reads _) fun existing => ?_
  refine Frame.keeps_ite (Frame.keeps_pure _) ?_
  refine Frame.keeps_bind (still_throwWith _) fun _ => ?_
  refine Frame.keeps_bind (still_throwWith _) fun _ => ?_
  exact Frame.keeps_bind (still_sortedOrder _ _) fun order => Frame.keeps_pure _

theorem uninstall_eq {order : List (Module W E)}
    (h : uninstallOrder env moduleList force s = (.returned order, s)) :
    uninstall env moduleList force s =
      if order.isEmpty then (.returned (), s)
      else inTransaction env (each (uninstallModule env) order) s := by
  rw [uninstall, bind_of_returned h]
  split <;> rfl

theorem afterFirstRemoval_throws {left : Option String} :
    (sessionFrame Schema shrinkingRegistry).KeepsOnThrow (afterFirstRemoval env left rest) := by
  have hfinish : (sessionFrame Schema shrinkingRegistry).Keeps (finishRemoval env left) := by
    cases left with
    | none => exact Frame.keeps_pure ()
    | some e => exact (removal_shrinks [] e).2
  refine Frame.keepsOnThrow_bind hfinish fun _ => ?_
  refine Frame.keepsOnThrow_bind (Frame.keeps_each fun m _ => uninstallModule_shrinks) fun _ => ?_
  exact commitTransaction_throws

theorem uninstall_atomic_iff : Atomic env (uninstall env moduleList force) s ↔
    UninstallFailsEarly env moduleList force s := by
  constructor
  · rintro h md rest horder left t hlose ⟨e, u, hafter⟩
    have hthrow : uninstall env moduleList force s =
        (.thrown e, { u with transaction := none }) := by
      rw [uninstall_eq horder]
      refine inTransaction_thrown.mpr ⟨u, ?_, rfl⟩
      rw [uninstalls_eq, bind_of_returned hlose, hafter]
    have hlost := (loseFirstRow_loses hlose).shrink (afterFirstRemoval_throws t e u hafter).2
    exact hlost.ne (h e _ hthrow).registry
  · intro h e t hthrow
    rcases bind_thrown_inv hthrow with horder | ⟨order, u, horder, -⟩
    · obtain rfl : t = s :=
        Frame.keepsOnThrow_of_keeps (still_uninstallOrder moduleList force) s e t horder
      exact ⟨rfl, rfl⟩
    · obtain rfl : u = s := by
        have hstill : (stillFrame (Session Schema)).Keeps (uninstallOrder env moduleList force) :=
          still_uninstallOrder moduleList force
        have hkeep := hstill s
        rw [horder] at hkeep
        exact hkeep
      rw [uninstall_eq horder] at hthrow
      cases order with
      | nil => cases hthrow
      | cons md rest =>
        have hschema := (rel_of_inTransaction_thrown
          (Frame.keeps_each fun m _ => uninstallModule_shrinks) hthrow).1
        obtain ⟨v, hrun, rfl⟩ := inTransaction_thrown.mp hthrow
        rw [uninstalls_eq] at hrun
        rcases bind_thrown_inv hrun with hlose | ⟨left, w, hlose, hafter⟩
        · have hsame := loseFirstRow_throws _ e v hlose
          exact ⟨congrArg env.baseTables hschema, hsame.2⟩
        · exact absurd ⟨e, v, hafter⟩ (h md rest horder left w hlose)

end Uninstalls

section Both

variable {W E Schema : Type} (env : InstallEnv W E Schema)

theorem install_uninstall_atomic_iff (moduleList : List String) (allModules force : Bool)
    (s : Session Schema) :
    (Atomic env (install env moduleList allModules force) s ↔
      InstallFailsEarly env moduleList allModules force s) ∧
    (Atomic env (uninstall env moduleList force) s ↔
      UninstallFailsEarly env moduleList force s) :=
  ⟨install_atomic_iff, uninstall_atomic_iff⟩

def vpcTables : Module Unit Unit where
  name := "aws_vpc"
  version := "0.0.1"
  dependencies := []
  tables := ["vpc"]
  mappers := []

-- the audit trigger cannot be created, and COMMIT fails
def brokenEnv : InstallEnv Unit Unit (List String) where
  allModules := [vpcTables]
  version := "0.0.1"
  versionString := "0.0.1"
  baseTables := id
  migrations _ := { install := some (Prog.writes fun tables => tables ++ ["vpc"]) }
  createTrigger _ := Prog.fail (.error "relation \"vpc\" does not exist")
  dropTrigger _ := pure ()
  closest m _ := m
  commit _ _ := .returned ()
  ormFault _ := none
  commitFault _ := some (.error "could not serialize access")

def emptySession : Session (List String) := { schema := [], registry := {} }

def vpcSession : Session (List String) where
  schema := ["vpc"]
  registry := { iasqlModule := ["aws_vpc@0.0.1"], iasqlTables := [("aws_vpc@0.0.1", "vpc")] }

theorem failed_install_and_uninstall_leave_rows :
    ¬ Atomic brokenEnv (install brokenEnv ["aws_vpc"] false false) emptySession ∧
      ¬ Atomic brokenEnv (uninstall brokenEnv ["aws_vpc"] false) vpcSession := by
  constructor
  · intro h
    have hrun : (install brokenEnv ["aws_vpc"] false false emptySession).1 =
        .thrown (.error "relation \"vpc\" does not exist") := by decide +kernel
    have hsame := (h _ _ (run_eq hrun)).registry
    revert hsame
    decide +kernel
  · intro h
    have hrun : (uninstall brokenEnv ["aws_vpc"] false vpcSession).1 =
        .thrown (.error "could not serialize access") := by decide +kernel
    have hsame := (h _ _ (run_eq hrun)).registry
    revert hsame
    decide +kernel

end Both

end Iasql
