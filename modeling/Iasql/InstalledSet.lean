import Iasql.Calculus.Runs
import Iasql.InstallAtomicity
import Iasql.ModSort

namespace Iasql

open Program Prog Relation Runs

section Calls

variable {W E Schema : Type} (env : InstallEnv W E Schema)

-- the query that lists the tables of the modules reads the registry only
def selectModules : Prog (Session Schema) Thrown Unit := ormCall env fun r => ((), r)

def iasqlInstall (params : List String) : Prog (Session Schema) Thrown Unit := do
  install env params false false
  selectModules env

def withoutBuiltIns (params : List String) : List String :=
  params.filter fun mod => !(["iasql_functions", "iasql_platform"].contains mod)

def iasqlUninstall (params : List String) : Prog (Session Schema) Thrown Unit := do
  selectModules env
  uninstall env (withoutBuiltIns params) false

inductive ModuleCall (Schema : Type) where
  | install (params : List String)
  | uninstall (params : List String)
  | sql (statements : Schema → Schema)

def afterCall (s : Session Schema) : ModuleCall Schema → Session Schema
  | .install params => (iasqlInstall env params s).2
  | .uninstall params => (iasqlUninstall env params s).2
  | .sql statements => { s with schema := statements s.schema }

-- what migrate writes into the registry of a new database
def migrated : Registry :=
  let platform := s!"iasql_platform@{env.version}"
  { iasqlModule := coreModules env
    iasqlDependencies := [(s!"iasql_functions@{env.version}", platform)]
    iasqlTables := ((findModule env platform).elim [] (·.tables)).map fun t => (platform, t) }

def Fresh (s : Session Schema) : Prop := s.registry = migrated env

structure WellFormed (r : Registry) : Prop where
  closed : ∀ n ∈ r.iasqlModule, ∃ m, findModule env n = some m ∧
    ∀ d ∈ m.dependencies, d ∈ r.iasqlModule
  builtIn : ∀ n ∈ coreModules env, n ∈ r.iasqlModule
  tables : ∀ n ∈ r.iasqlModule, n ∉ coreModules env → ∀ m, findModule env n = some m →
    ∀ t, (n, t) ∈ r.iasqlTables ↔ t ∈ m.tables

-- the two built-in modules are in the code, and depend on each other only
def BuiltIns : Prop :=
  ∀ n ∈ coreModules env, ∃ m, findModule env n = some m ∧ ∀ d ∈ m.dependencies, d ∈ coreModules env

def uninstallNames (params : List String) : List String :=
  (dedup (withoutBuiltIns params)).map (withVersion env)

structure SafeUninstall (params : List String) : Prop where
  builtIn : ∀ n ∈ uninstallNames env params, n ∉ coreModules env
  once : ∀ n ∈ uninstallNames env params, ∀ m, findModule env n = some m →
    ∀ d ∈ m.dependencies, (uninstallNames env params).count d ≤ 1

def SafeCall (_ : Session Schema) : ModuleCall Schema → Prop
  | .uninstall params => SafeUninstall env params
  | _ => True

def CallRun (ok : Session Schema → ModuleCall Schema → Prop) : Session Schema → Prop :=
  RunFrom (Fresh env) (fun s a t => afterCall env s a = t) ok

end Calls

section Registry

variable {W E Schema : Type} {env : InstallEnv W E Schema} {md : Module W E} {r r' : Registry}

structure Sound (env : InstallEnv W E Schema) (r : Registry) : Prop extends WellFormed env r where
  owned : ∀ row ∈ r.iasqlTables, row.1 ∈ r.iasqlModule

structure Registered (md : Module W E) (r r' : Registry) : Prop where
  modules : ∀ n, n ∈ r'.iasqlModule ↔ n ∈ r.iasqlModule ∨ n = md.fullName
  tables : ∀ row, row ∈ r'.iasqlTables ↔ row ∈ r.iasqlTables ∨
    row.1 = md.fullName ∧ row.2 ∈ md.tables

structure Removed (name : String) (r r' : Registry) : Prop where
  modules : ∀ n, n ∈ r'.iasqlModule ↔ n ∈ r.iasqlModule ∧ n ≠ name
  tables : ∀ row, row ∈ r'.iasqlTables ↔ row ∈ r.iasqlTables ∧ row.1 ≠ name

def Detachable (env : InstallEnv W E Schema) (r : Registry) (name : String) : Prop :=
  name ∉ coreModules env ∧ ∀ n ∈ r.iasqlModule, n ≠ name →
    ∀ m, findModule env n = some m → name ∉ m.dependencies

theorem Sound.registered (h : Sound env r) (hfind : findModule env md.fullName = some md)
    (hdeps : ∀ d ∈ md.dependencies, d ∈ r.iasqlModule) (hreg : Registered md r r') :
    Sound env r' where
  closed n hn := by
    rcases (hreg.modules n).mp hn with hold | rfl
    · obtain ⟨m, hm, hin⟩ := h.closed n hold
      exact ⟨m, hm, fun d hd => (hreg.modules d).mpr (.inl (hin d hd))⟩
    · exact ⟨md, hfind, fun d hd => (hreg.modules d).mpr (.inl (hdeps d hd))⟩
  builtIn n hn := (hreg.modules n).mpr (.inl (h.builtIn n hn))
  tables n hn hcore m hm t := by
    rw [hreg.tables]
    by_cases hname : n = md.fullName
    · subst hname
      obtain rfl : md = m := Option.some.inj (hfind.symm.trans hm)
      constructor
      · rintro (hold | ⟨-, ht⟩)
        · exact (h.tables _ (h.owned _ hold) hcore md hfind t).mp hold
        · exact ht
      · exact fun ht => .inr ⟨rfl, ht⟩
    · have hold : n ∈ r.iasqlModule := ((hreg.modules n).mp hn).resolve_right hname
      rw [h.tables n hold hcore m hm t]
      simp [hname]
  owned row hrow := by
    rw [hreg.modules]
    rcases (hreg.tables row).mp hrow with hold | ⟨hname, -⟩
    · exact .inl (h.owned row hold)
    · exact .inr hname

theorem Sound.removed {name : String} (h : Sound env r) (hdetach : Detachable env r name)
    (hrem : Removed name r r') : Sound env r' where
  closed n hn := by
    obtain ⟨hold, hne⟩ := (hrem.modules n).mp hn
    obtain ⟨m, hm, hin⟩ := h.closed n hold
    refine ⟨m, hm, fun d hd => (hrem.modules d).mpr ⟨hin d hd, ?_⟩⟩
    rintro rfl
    exact hdetach.2 n hold hne m hm hd
  builtIn n hn := (hrem.modules n).mpr ⟨h.builtIn n hn, fun heq => hdetach.1 (heq ▸ hn)⟩
  tables n hn hcore m hm t := by
    obtain ⟨hold, hne⟩ := (hrem.modules n).mp hn
    rw [hrem.tables, ← h.tables n hold hcore m hm t]
    simp [hne]
  owned row hrow := by
    obtain ⟨hold, hne⟩ := (hrem.tables row).mp hrow
    exact (hrem.modules row.1).mpr ⟨h.owned row hold, hne⟩

theorem sound_fresh (hbuilt : BuiltIns env) {s : Session Schema} (h : Fresh env s) :
    Sound env s.registry := by
  rw [Fresh] at h
  rw [h]
  refine ⟨⟨hbuilt, fun _ hn => hn, fun n hn hcore => absurd hn hcore⟩, fun row hrow => ?_⟩
  obtain ⟨t, -, rfl⟩ := List.mem_map.mp hrow
  exact List.mem_cons_self

end Registry

section Steps

variable {W E Schema α : Type} {env : InstallEnv W E Schema} {md : Module W E} {r : Registry}
  {s : Session Schema}

theorem ends_ormCall (hfault : ∀ n, env.ormFault n = none) {P : Registry → Prop}
    {R : α → Registry → Prop} {Q : Session Schema → Prop} {f : Registry → α × Registry}
    (h : ∀ r, P r → R (f r).1 (f r).2) :
    Ends (fun s => P s.registry) (ormCall env f) (fun a s => R a s.registry) Q := by
  intro s hs
  rw [ormCall_apply, hfault]
  exact h _ hs

theorem ends_same {p : Prog (Session Schema) Thrown α}
    (h : (sessionFrame Schema sameRegistry).Keeps p) (P : Registry → Prop) :
    Ends (fun s => P s.registry) p (fun _ s => P s.registry) fun s => P s.registry := by
  refine ends_of_keeps h fun s t hs hrel => ?_
  have hsame : t.registry = s.registry := hrel.2
  rwa [hsame]

theorem toChunks_flatten {n : Nat} (xs : List α) : (xs.toChunks (n + 1)).flatten = xs := by
  have hgo : ∀ (rest : List α) (chunk : Array α) (done : Array (List α)),
      (List.toChunks.go (n + 1) rest chunk done).flatten =
        done.toList.flatten ++ chunk.toList ++ rest := by
    intro rest
    induction rest with
    | nil =>
      intro chunk done
      simp [List.toChunks.go]
    | cons x rest ih =>
      intro chunk done
      rw [List.toChunks.go]
      split <;> simp [ih]
  cases xs with
  | nil => rfl
  | cons x xs => simp [List.toChunks, hgo]

theorem batches_flatten (xs : List α) : (batches 100 xs).flatten = xs := by
  unfold batches
  split
  · exact toChunks_flatten xs
  · simp

theorem mem_addPairs {xs ys : List (String × String)} {row : String × String} :
    row ∈ addPairs xs ys ↔ row ∈ xs ∨ row ∈ ys := by
  unfold addPairs
  induction ys generalizing xs with
  | nil => simp
  | cons y ys ih =>
    rw [List.foldl_cons, ih]
    by_cases hy : y ∈ xs
    · rw [if_pos hy, List.mem_cons]
      constructor
      · exact Or.imp_right .inr
      · rintro (hx | rfl | hx)
        · exact .inl hx
        · exact .inl hy
        · exact .inr hx
    · rw [if_neg hy]
      simp [or_assoc]

theorem mem_addIfNew_iff {xs : List String} {x n : String} :
    n ∈ addIfNew xs x ↔ n ∈ xs ∨ n = x := by
  unfold addIfNew
  by_cases hx : x ∈ xs
  · rw [if_pos hx]
    constructor
    · exact .inl
    · rintro (hn | rfl)
      · exact hn
      · exact hx
  · rw [if_neg hx]
    simp

structure Added (rows : List (String × String)) (r r' : Registry) : Prop where
  modules : r'.iasqlModule = r.iasqlModule
  tables : ∀ row, row ∈ r'.iasqlTables ↔ row ∈ r.iasqlTables ∨ row ∈ rows

theorem saveTables_adds (hfault : ∀ n, env.ormFault n = none) (r : Registry)
    (rows : List (String × String)) (Q : Session Schema → Prop) :
    Ends (fun s => s.registry = r) (saveTables env rows) (fun _ s => Added rows r s.registry) Q := by
  let I (pre : List (List (String × String))) (s : Session Schema) : Prop :=
    Added pre.flatten r s.registry
  have hbatches : Ends (I []) (saveTables env rows) (fun _ => I (batches 100 rows)) Q :=
    ends_each I fun pre x post _ =>
      ends_ormCall hfault fun r' h => ⟨h.modules, fun row => by
        rw [mem_addPairs, h.tables]
        simp [or_assoc]⟩
  refine hbatches.mono (fun s hs => ?_) (fun _ s h => ?_) fun _ h => h
  · change Added [] r s.registry
    rw [hs]
    exact ⟨rfl, by simp⟩
  · change Added (batches 100 rows).flatten r s.registry at h
    rwa [batches_flatten] at h

theorem provideTables_adds (hfault : ∀ n, env.ormFault n = none) (r : Registry) :
    Ends (fun s => s.registry = r) (provideTables env md)
      (fun _ s => Added (md.tables.map fun t => (md.fullName, t)) r s.registry)
      fun s => Added (md.tables.map fun t => (md.fullName, t)) r s.registry := by
  refine ends_bind (saveTables_adds hfault r _ _) fun _ => ?_
  exact ends_same (Frame.keeps_each fun table _ => keeps_query _) _

structure Saved (name : String) (r r' : Registry) : Prop where
  modules : r'.iasqlModule = addIfNew r.iasqlModule name
  tables : r'.iasqlTables = r.iasqlTables

theorem Saved.registered {r₁ r₂ : Registry} (h : Saved md.fullName r r₁)
    (hadded : Added (md.tables.map fun t => (md.fullName, t)) r₁ r₂) : Registered md r r₂ where
  modules n := by rw [hadded.modules, h.modules, mem_addIfNew_iff]
  tables row := by
    obtain ⟨name, t⟩ := row
    rw [hadded.tables, h.tables, List.mem_map]
    constructor
    · rintro (hold | ⟨t', ht', heq⟩)
      · exact .inl hold
      · cases heq
        exact .inr ⟨rfl, ht'⟩
    · rintro (hold | ⟨rfl, ht⟩)
      · exact .inl hold
      · exact .inr ⟨t, ht, rfl⟩

theorem saveModule_saves (hfault : ∀ n, env.ormFault n = none) (r : Registry) (name : String)
    (deps : List String) (Q : Session Schema → Prop) : Ends (fun s => s.registry = r)
      (saveModule env name deps) (fun _ s => Saved name r s.registry) Q := by
  refine ends_ormCall (P := (· = r)) (R := fun _ r' => Saved name r r') hfault ?_
  rintro _ rfl
  exact ⟨rfl, rfl⟩

theorem installModule_registers (hfault : ∀ n, env.ormFault n = none) (r : Registry) :
    Ends (fun s => s.registry = r) (installModule env md) (fun _ s => Registered md r s.registry)
      fun s => s.registry = r ∨ Registered md r s.registry := by
  have hsame {β : Type} {p : Prog (Session Schema) Thrown β}
      (h : (sessionFrame Schema sameRegistry).Keeps p) :
      Ends (fun s => s.registry = r) p (fun _ s => s.registry = r)
        fun s => s.registry = r ∨ Registered md r s.registry :=
    (ends_same h (· = r)).mono (fun _ h => h) (fun _ _ h => h) fun _ h => .inl h
  have hregister : Ends (fun s => s.registry = r) (registerModule env md)
      (fun _ s => Saved md.fullName r s.registry)
      fun s => s.registry = r ∨ Registered md r s.registry := by
    refine ends_bind (hsame (keeps_runHook _)) fun _ => ?_
    refine ends_bind (hsame (keeps_runHook _)) fun _ => ?_
    refine ends_bind (hsame (keeps_runHook _)) fun _ => ?_
    refine ends_bind (hsame (Frame.keeps_gather fun dep _ => keeps_ormCall fun _ => rfl)) ?_
    exact fun deps => saveModule_saves hfault r _ deps _
  refine ends_bind hregister fun _ s hsaved => ?_
  have hadded : Ends (fun t => t.registry = s.registry) (provideTables env md)
      (fun _ t => Registered md r t.registry) fun t => t.registry = r ∨ Registered md r t.registry :=
    (provideTables_adds hfault s.registry).mono (fun _ h => h) (fun _ t h => hsaved.registered h)
      fun t h => .inr (hsaved.registered h)
  exact hadded s rfl

theorem detachModule_ends (r : Registry) : Ends (fun s => s.registry = r) (detachModule env md)
    (fun found s => s.registry = r ∧
      found = (md.fullName, r.iasqlTables.filter (·.1 == md.fullName)))
    fun s => s.registry = r := by
  rintro s rfl
  have hkeep := (@detachModule_keeps _ _ _ env md s).2
  rcases hrun : detachModule env md s with ⟨o, t⟩
  rw [hrun] at hkeep
  cases o with
  | returned found =>
    obtain ⟨hname, -, hrows⟩ := detachModule_finds _ _ _ trivial hrun
    have hsame : t.registry = s.registry := hkeep
    refine ⟨hsame, ?_⟩
    rw [← hsame, ← hname, ← hrows]
  | thrown e => exact hkeep
  | diverged => exact hkeep

theorem uninstallModule_removes (hfault : ∀ n, env.ormFault n = none) (r : Registry) :
    Ends (fun s => s.registry = r) (uninstallModule env md)
      (fun _ s => Removed md.fullName r s.registry) fun s => s.registry = r := by
  refine ends_bind (detachModule_ends r) ?_
  rintro ⟨e, mt⟩ s ⟨rfl, hfound⟩
  obtain ⟨rfl, rfl⟩ := Prod.mk.inj hfound
  simp only [removeTables, removeModule, bind_apply, ormCall_apply, hfault]
  refine ⟨fun n => ?_, fun row => ?_⟩
  · simp
  · simp only [List.mem_filter, decide_not, Bool.not_eq_true', decide_eq_false_iff_not]
    constructor
    · rintro ⟨hrow, hnot⟩
      exact ⟨hrow, fun hname => hnot ⟨hrow, by simpa using hname⟩⟩
    · rintro ⟨hrow, hname⟩
      exact ⟨hrow, fun hin => hname (by simpa using hin.2)⟩

end Steps

section Orders

variable {W E Schema : Type} {env : InstallEnv W E Schema} {mods out order : List (Module W E)}
  {md m : Module W E} {existing names params : List String} {r : Registry} {s : Session Schema}

def Known (env : InstallEnv W E Schema) (mods : List (Module W E)) : Prop :=
  ∀ m ∈ mods, findModule env m.fullName = some m

theorem known_filterMap : Known env (names.filterMap (findModule env)) := by
  intro m hm
  obtain ⟨n, -, hfind⟩ := List.mem_filterMap.mp hm
  rw [fullName_of_find hfind, hfind]

theorem attachDependencies_known {fuel : Nat} (hmods : Known env mods)
    (h : attachDependencies env existing fuel mods names = .returned out) : Known env out := by
  induction fuel generalizing mods names with
  | zero => cases h
  | succ fuel ih =>
    rw [attachDependencies] at h
    split at h
    · cases h
      exact hmods
    · split at h
      · cases h
      · next extraMods hextra =>
        refine ih (fun m hm => ?_) h
        rcases List.mem_append.mp hm with hm | hm
        · exact hmods m hm
        · obtain ⟨n, -, hfind⟩ := mem_of_mapM_findModule hextra m hm
          rw [fullName_of_find hfind, hfind]

structure Detaches (env : InstallEnv W E Schema) (existing : List String)
    (order : List (Module W E)) : Prop where
  builtIn : ∀ m ∈ order, m.fullName ∉ coreModules env
  leafFirst : ∀ pre md post, order = pre ++ md :: post → ∀ n ∈ existing, n ≠ md.fullName →
    n ∉ pre.map (·.fullName) → ∀ m, findModule env n = some m → md.fullName ∉ m.dependencies

theorem named_sublist : (((names.filterMap (findModule env)).filter fun m =>
    existing.contains m.fullName).map (·.fullName)).Sublist names := by
  have hall : ((names.filterMap (findModule env)).map (·.fullName)).Sublist names := by
    induction names with
    | nil => exact List.Sublist.refl _
    | cons n names ih =>
      cases hfind : findModule env n with
      | none =>
        rw [List.filterMap_cons_none hfind]
        exact ih.cons n
      | some m =>
        rw [List.filterMap_cons_some hfind, List.map_cons, fullName_of_find hfind]
        exact ih.cons_cons n
  exact (List.filter_sublist.map _).trans hall

theorem detaches_of_sorted (hsafe : SafeUninstall env params)
    (hmods : mods = ((uninstallNames env params).filterMap (findModule env)).filter fun m =>
      existing.contains m.fullName)
    (hdep : (existing.filter fun n => !(mods.map (·.fullName)).contains n).find?
      (dependsOn env (mods.map (·.fullName))) = none)
    (hperm : out.Perm mods)
    (hrespects : Respects (existing.filter fun n => !(mods.map (·.fullName)).contains n) out) :
    Detaches env existing out.reverse := by
  have hknown : Known env mods := hmods ▸ fun m hm => known_filterMap m (List.mem_filter.mp hm).1
  have hnames : (mods.map (·.fullName)).Sublist (uninstallNames env params) := hmods ▸ named_sublist
  have hnamed : ∀ m ∈ mods, m.fullName ∈ mods.map (·.fullName) :=
    fun m hm => List.mem_map.mpr ⟨m, hm, rfl⟩
  refine ⟨fun m hm => ?_, fun pre md post hsplit n hn hne hpre m hm hd => ?_⟩
  · have hin : m ∈ mods := hperm.mem_iff.mp (List.mem_reverse.mp hm)
    exact hsafe.builtIn _ (hnames.subset (hnamed m hin))
  · have hout : out = post.reverse ++ md :: pre.reverse := by
      rw [← List.reverse_reverse out, hsplit]
      simp
    have hmd : md ∈ mods := hperm.mem_iff.mp (by simp [hout])
    by_cases hleft : n ∈ mods.map (·.fullName)
    · -- n goes too, and after md: md would have a second spelling among what is left
      obtain ⟨m', hm', rfl⟩ := List.mem_map.mp hleft
      obtain rfl : m' = m := Option.some.inj ((hknown m' hm').symm.trans hm)
      have hpost : m' ∈ post.reverse := by
        have hmem : m' ∈ post.reverse ++ md :: pre.reverse := hout ▸ hperm.mem_iff.mpr hm'
        rcases List.mem_append.mp hmem with hmem | hmem
        · exact hmem
        · rcases List.mem_cons.mp hmem with rfl | hmem
          · exact absurd rfl hne
          · exact absurd (List.mem_map.mpr ⟨m', List.mem_reverse.mp hmem, rfl⟩) hpre
      obtain ⟨l₁, l₂, hl⟩ := List.append_of_mem hpost
      have hsecond : ∃ m₂ ∈ l₁, m₂.fullName = md.fullName := by
        have hall : out = l₁ ++ m' :: (l₂ ++ md :: pre.reverse) := by rw [hout, hl]; simp
        rcases hrespects.split hall _ hd with hremain | hbefore
        · have hnot := (List.mem_filter.mp hremain).2
          simp [hnamed md hmd] at hnot
        · exact hbefore
      obtain ⟨m₂, hm₂, heq⟩ := hsecond
      have htwice : 2 ≤ (out.map (·.fullName)).count md.fullName := by
        have hfirst : 0 < (l₁.map (·.fullName)).count md.fullName :=
          List.count_pos_iff.mpr (List.mem_map.mpr ⟨m₂, hm₂, heq⟩)
        rw [hout, hl]
        simp only [List.map_append, List.map_cons, List.count_append, List.count_cons_self]
        omega
      have honce := hsafe.once m'.fullName (hnames.subset hleft) m' hm _ hd
      have hle := hnames.count_le md.fullName
      rw [(hperm.map (·.fullName)).count_eq] at htwice
      omega
    · have hremain : n ∈ existing.filter fun n => !(mods.map (·.fullName)).contains n := by
        rw [List.mem_filter]
        exact ⟨hn, by simpa using hleft⟩
      have hnone := List.find?_eq_none.mp hdep n hremain
      refine hnone ?_
      rw [dependsOn, hm, Option.any_some, List.any_eq_true]
      exact ⟨md.fullName, hd, List.contains_iff_mem.mpr (hnamed md hmd)⟩

theorem returns_still {α : Type} {p : Prog (Session Schema) Thrown α}
    (h : (stillFrame (Session Schema)).Keeps p) : Returns (· = s) p fun _ t => t = s := by
  rintro u a t rfl heq
  have hkeep := h u
  rw [heq] at hkeep
  exact hkeep

theorem throwWith_none {message : Option String} : Returns (· = s) (throwWith message)
    fun _ t => t = s ∧ message = none := by
  rintro _ _ t rfl heq
  cases message <;> cases heq
  exact ⟨rfl, rfl⟩

theorem sortedOrder_sorted : Returns (· = s) (sortedOrder mods existing) fun out _ =>
    out.Perm mods ∧ Respects existing out := by
  unfold sortedOrder
  split
  · next sorted hsorted => exact returns_pure fun _ _ => sortLoop_some hsorted
  · intro s order t _ heq
    cases heq

theorem uninstallOrder_detaches (hsafe : SafeUninstall env params) :
    Returns (· = s) (uninstallOrder env (withoutBuiltIns params) false) fun order _ =>
      Detaches env s.registry.iasqlModule order := by
  refine returns_bind (returns_still (still_throwIf _ _)) fun _ => ?_
  refine returns_bind (returns_still (still_throwIf _ _)) fun _ => ?_
  refine returns_bind (Q := fun existing t => t = s ∧ existing = s.registry.iasqlModule)
    (returns_reads fun t ht => ⟨ht, ht ▸ rfl⟩) fun existing => ?_
  refine returns_assume fun hexisting => ?_
  subst hexisting
  refine returns_ite (returns_pure fun _ _ => ⟨by simp, by simp⟩) ?_
  refine returns_bind (returns_still (still_throwWith _)) fun _ => ?_
  refine returns_bind throwWith_none fun _ => returns_assume fun hdep => ?_
  refine returns_bind sortedOrder_sorted fun out => returns_pure ?_
  rintro _ ⟨hperm, hrespects⟩
  exact detaches_of_sorted hsafe rfl (Option.map_eq_none_iff.mp hdep) hperm hrespects

theorem findMods_known {moduleList : List String} {registry : Registry} :
    Returns (fun _ : Session Schema => True) (findMods env registry moduleList false false)
      fun mods _ => Known env mods := by
  refine returns_bind (returns_any _) fun _ => ?_
  refine returns_bind (returns_any _) fun _ => ?_
  refine returns_bind (returns_any _) fun _ => ?_
  refine (returns_ofOutcome _).mono (fun _ h => h) fun mods _ hmods => ?_
  exact attachDependencies_known (fun m hm => known_filterMap m (List.mem_filter.mp hm).1) hmods

theorem orderMods_sorted {registry : Registry} :
    Returns (fun _ : Session Schema => True) (orderMods env registry mods) fun out _ =>
      out.Perm mods ∧ Respects registry.iasqlModule out := by
  refine returns_bind (returns_any _) fun tables => ?_
  refine returns_bind (returns_any _) fun _ => ?_
  refine returns_bind (returns_any _) fun committed => ?_
  refine returns_bind (returns_any _) fun _ => ?_
  exact fun s out t _ heq => sortedOrder_sorted s out t rfl heq

theorem installOrder_sorted {moduleList : List String} :
    Returns (· = s) (installOrder env moduleList false false) fun order _ =>
      Known env order ∧ Respects s.registry.iasqlModule order := by
  refine returns_bind (Q := fun registry _ => True ∧ registry = s.registry)
    (returns_reads fun t ht => ⟨trivial, ht ▸ rfl⟩) fun registry => ?_
  refine returns_assume fun hregistry => ?_
  subst hregistry
  intro u order v _ heq
  obtain ⟨mods, w, hmods, horder⟩ := bind_returned_inv heq
  have hknown : Known env mods := findMods_known _ _ _ trivial hmods
  cases hempty : mods.isEmpty with
  | true =>
    simp only [hempty, ↓reduceIte] at horder
    cases horder
    exact ⟨by simp [Known], trivial⟩
  | false =>
    simp only [hempty] at horder
    obtain ⟨hperm, hrespects⟩ := orderMods_sorted _ _ _ trivial horder
    exact ⟨fun m hm => hknown m (hperm.mem_iff.mp hm), hrespects⟩

end Orders

section Calls

variable {W E Schema : Type} {env : InstallEnv W E Schema} {order : List (Module W E)}
  {params : List String} {r : Registry} {s : Session Schema}

theorem inTransaction_ends {body : Prog (Session Schema) Thrown Unit} {P Q : Registry → Prop}
    (h : Ends (fun s => P s.registry) body (fun _ s => Q s.registry) fun s => Q s.registry)
    (hs : P s.registry) : Q (inTransaction env body s).2.registry := by
  have hcommit : Ends (fun s : Session Schema => Q s.registry) (commitTransaction env)
      (fun _ s => Q s.registry) fun s => Q s.registry := by
    intro u hu
    rw [commitTransaction_apply]
    cases env.commitFault (u.transaction.getD u.schema) <;> exact hu
  have hend := (ends_bind h fun _ => hcommit).snd (s := begun s) hs
  rw [inTransaction_eq]
  rcases hbody : (body >>= fun _ => commitTransaction env) (begun s) with ⟨o, t⟩
  rw [hbody] at hend
  cases o with
  | returned done =>
    rw [bind_of_returned (attempt_ok.mpr hbody)]
    exact hend
  | thrown e =>
    rw [bind_of_returned (attempt_error.mpr hbody)]
    exact hend
  | diverged =>
    rw [bind_of_diverged (attempt_diverged hbody)]
    exact hend

theorem each_installs (hfault : ∀ n, env.ormFault n = none) (hsound : Sound env r)
    (hknown : Known env order) {names : List String} (hrespects : Respects names order)
    (hnames : names ⊆ r.iasqlModule) :
    Ends (fun s => s.registry = r) (each (installModule env) order)
      (fun _ s => Sound env s.registry) fun s => Sound env s.registry := by
  induction order generalizing r names with
  | nil =>
    rintro s rfl
    exact hsound
  | cons md rest ih =>
    have hdeps : ∀ d ∈ md.dependencies, d ∈ r.iasqlModule := fun d hd => hnames (hrespects.1 d hd)
    have hstep {r' : Registry} (hreg : Registered md r r') : Sound env r' :=
      hsound.registered (hknown md (by simp)) hdeps hreg
    refine ends_bind ((installModule_registers hfault r).mono (fun _ h => h) (fun _ _ h => h) ?_) ?_
    · rintro u (hsame | hreg)
      · exact hsame ▸ hsound
      · exact hstep hreg
    · intro _ u hreg
      refine ih (hstep hreg) (fun m hm => hknown m (List.mem_cons_of_mem _ hm)) hrespects.2 ?_ u rfl
      intro n hn
      rw [hreg.modules]
      rcases List.mem_cons.mp hn with rfl | hn
      · exact .inr rfl
      · exact .inl (hnames hn)

theorem each_uninstalls (hfault : ∀ n, env.ormFault n = none) (hsound : Sound env r)
    (hdetach : Detaches env r.iasqlModule order) :
    Ends (fun s => s.registry = r) (each (uninstallModule env) order)
      (fun _ s => Sound env s.registry) fun s => Sound env s.registry := by
  let I (pre : List (Module W E)) (s : Session Schema) : Prop := Sound env s.registry ∧
    ∀ n ∈ s.registry.iasqlModule, n ∈ r.iasqlModule ∧ n ∉ pre.map (·.fullName)
  have hleft : Ends (I []) (each (uninstallModule env) order) (fun _ => I order)
      fun s => Sound env s.registry := ends_each I ?_
  · refine hleft.mono ?_ (fun _ s h => h.1) fun _ h => h
    rintro s rfl
    exact ⟨hsound, by simp⟩
  · rintro pre md post hsplit u ⟨hs, hin⟩
    have hcan : Detachable env u.registry md.fullName := by
      refine ⟨hdetach.builtIn md (by simp [hsplit]), fun n hn hne m hm => ?_⟩
      exact hdetach.leafFirst pre md post hsplit n (hin n hn).1 hne (hin n hn).2 m hm
    refine ((@uninstallModule_removes _ _ _ env md hfault u.registry).mono (fun _ h => h) ?_ ?_) u rfl
    · intro _ t hrem
      refine ⟨hs.removed hcan hrem, fun n hn => ?_⟩
      obtain ⟨hold, hne⟩ := (hrem.modules n).mp hn
      refine ⟨(hin n hold).1, ?_⟩
      simpa [hne] using (hin n hold).2
    · rintro t hsame
      exact hsame ▸ hs

theorem ends_still {α : Type} {p : Prog (Session Schema) Thrown α} {G : α → Prop}
    (hstill : (stillFrame (Session Schema)).Keeps p) (h : Returns (· = s) p fun a _ => G a) :
    Ends (· = s) p (fun a t => t = s ∧ G a) (· = s) := by
  rintro u rfl
  have hkeep : (p u).2 = u := hstill u
  rcases hrun : p u with ⟨o, t⟩
  rw [hrun] at hkeep
  cases o with
  | returned a => exact ⟨hkeep, h u a t rfl hrun⟩
  | thrown e => exact hkeep
  | diverged => exact hkeep

theorem transact_sound {f : Module W E → Prog (Session Schema) Thrown Unit}
    (hs : Sound env s.registry) (hbody : Ends (fun t => t.registry = s.registry) (each f order)
      (fun _ t => Sound env t.registry) fun t => Sound env t.registry) :
    Sound env ((if order.isEmpty then return () else inTransaction env (each f order) :
      Prog (Session Schema) Thrown Unit) s).2.registry := by
  split
  · exact hs
  · exact inTransaction_ends (P := (· = s.registry)) (Q := Sound env) hbody rfl

theorem iasqlInstall_sound (hfault : ∀ n, env.ormFault n = none) (hs : Sound env s.registry) :
    Sound env (iasqlInstall env params s).2.registry := by
  have horder : Ends (· = s) (installOrder env params false false)
      (fun order t => t = s ∧ Known env order ∧ Respects s.registry.iasqlModule order)
      fun t => Sound env t.registry :=
    (ends_still (still_installOrder params false false) installOrder_sorted).mono
      (fun _ h => h) (fun _ _ h => h) fun t ht => ht ▸ hs
  have hinstall : Ends (· = s) (install env params false false)
      (fun _ t => Sound env t.registry) fun t => Sound env t.registry := by
    refine ends_bind horder fun order => ends_of_snd ?_
    rintro t ⟨rfl, hknown, hrespects⟩
    exact transact_sound hs (each_installs hfault hs hknown hrespects (List.Subset.refl _))
  refine (ends_bind hinstall fun _ => ?_).snd rfl
  exact ends_ormCall hfault fun r h => h

theorem iasqlUninstall_sound (hfault : ∀ n, env.ormFault n = none)
    (hsafe : SafeUninstall env params) (hs : Sound env s.registry) :
    Sound env (iasqlUninstall env params s).2.registry := by
  have huninstall : ∀ t : Session Schema, Sound env t.registry →
      Sound env (uninstall env (withoutBuiltIns params) false t).2.registry := by
    intro t ht
    have horder : Ends (· = t) (uninstallOrder env (withoutBuiltIns params) false)
        (fun order u => u = t ∧ Detaches env t.registry.iasqlModule order)
        fun u => Sound env u.registry :=
      (ends_still (still_uninstallOrder _ false) (uninstallOrder_detaches hsafe)).mono
        (fun _ h => h) (fun _ _ h => h) fun u hu => hu ▸ ht
    refine (ends_bind horder fun order => ends_of_snd ?_).snd rfl
    rintro u ⟨rfl, hdetach⟩
    exact transact_sound ht (each_uninstalls hfault ht hdetach)
  have hselect : Ends (fun t => Sound env t.registry) (selectModules env)
      (fun _ t => Sound env t.registry) fun t => Sound env t.registry :=
    ends_ormCall hfault fun r h => h
  exact (ends_bind hselect fun _ => ends_of_snd huninstall).snd hs

theorem afterCall_sound (hfault : ∀ n, env.ormFault n = none) {a : ModuleCall Schema}
    (hsafe : SafeCall env s a) (hs : Sound env s.registry) :
    Sound env (afterCall env s a).registry := by
  cases a with
  | install params => exact iasqlInstall_sound hfault hs
  | uninstall params => exact iasqlUninstall_sound hfault hsafe hs
  | sql statements => exact hs

theorem wellFormed_of_safe (hbuilt : BuiltIns env) (hfault : ∀ n, env.ormFault n = none)
    (h : CallRun env (SafeCall env) s) : WellFormed env s.registry := by
  have hsound : Sound env s.registry := by
    refine RunFrom.invariant (I := fun s => Sound env s.registry) h
      (fun s hs => sound_fresh hbuilt hs) ?_
    rintro s a t hs hok rfl
    exact afterCall_sound hfault hok hs
  exact hsound.toWellFormed

def platformEnv : InstallEnv Unit Unit (List String) where
  allModules := [iasqlPlatform, iasqlFunctions, awsAccount, awsVpc]
  version := "0.0.1"
  versionString := "0.0.1"
  baseTables := id
  migrations _ := {}
  createTrigger _ := pure ()
  dropTrigger _ := pure ()
  closest m _ := m
  commit _ _ := .returned ()
  ormFault _ := none
  commitFault _ := none

def freshSession : Session (List String) := { schema := [], registry := migrated platformEnv }

theorem platformEnv_builtIns : BuiltIns platformEnv := by
  intro n hn
  rcases List.mem_cons.mp hn with rfl | hn
  · exact ⟨iasqlPlatform, rfl, by decide +kernel⟩
  · obtain rfl := List.mem_singleton.mp hn
    exact ⟨iasqlFunctions, rfl, by decide +kernel⟩

theorem freshSession_fresh : Fresh platformEnv freshSession := rfl

def vpcGone : Session (List String) :=
  afterCall platformEnv (afterCall platformEnv freshSession (.install ["aws_vpc"]))
    (.uninstall ["aws_vpc", "iasql_functions"])

theorem vpcGone_wellFormed : WellFormed platformEnv vpcGone.registry ∧
    vpcGone.registry.iasqlModule = ["iasql_platform@0.0.1", "iasql_functions@0.0.1",
      "aws_account@0.0.1"] := by
  let installs : ModuleCall (List String) := .install ["aws_vpc"]
  let uninstalls : ModuleCall (List String) := .uninstall ["aws_vpc", "iasql_functions"]
  have hfirst : SafeCall platformEnv freshSession installs := trivial
  have hsecond : SafeCall platformEnv (afterCall platformEnv freshSession installs) uninstalls :=
    ⟨by decide +kernel, fun _ _ _ _ d _ => List.nodup_iff_count_le_one.mp (by decide +kernel) d⟩
  refine ⟨wellFormed_of_safe platformEnv_builtIns (fun _ => rfl) ?_, by decide +kernel⟩
  exact ((RunFrom.start freshSession_fresh).next hfirst rfl).next hsecond rfl

theorem platformEnv_acyclic (m : Module Unit Unit) :
    ¬ TransGen (DependsOn platformEnv.allModules) m m := by
  refine Acyclic.of_rank (fun m => m.dependencies.length) ?_ m
  rintro m m' ⟨hm, hm', hd⟩
  have hall : ∀ m ∈ platformEnv.allModules, ∀ m' ∈ platformEnv.allModules,
      m'.fullName ∈ m.dependencies → m'.dependencies.length < m.dependencies.length := by
    decide +kernel
  exact hall m hm m' hm' hd

-- the built-in modules are kept by their bare names only
theorem versioned_builtIn_removed :
    (∀ m, ¬ TransGen (DependsOn platformEnv.allModules) m m) ∧ BuiltIns platformEnv ∧
      ¬ ∀ s, CallRun platformEnv (fun _ _ => True) s → WellFormed platformEnv s.registry := by
  refine ⟨platformEnv_acyclic, platformEnv_builtIns, fun h => ?_⟩
  have hrun : CallRun platformEnv (fun _ _ => True)
      (afterCall platformEnv freshSession (.uninstall ["iasql_functions@0.0.1"])) :=
    RunFrom.next (.start freshSession_fresh) trivial rfl
  have hin := (h _ hrun).builtIn "iasql_functions@0.0.1" (by decide +kernel)
  revert hin
  decide +kernel

end Calls

end Iasql
