import Iasql.InstalledSet

namespace Iasql

open Program Prog Relation

section Definitions

variable {W E Schema : Type} (env : InstallEnv W E Schema) (existing requested : List String)

def DependsOnName (n d : String) : Prop := ∃ m, findModule env n = some m ∧ d ∈ m.dependencies

-- a requested module that is not installed, or what one depends on that is not installed either
def Needed (n : String) : Prop :=
  n ∉ existing ∧ ∃ a ∈ requested, a ∉ existing ∧ ReflTransGen (DependsOnName env) a n

structure Attached (mods : List (Module W E)) : Prop where
  once : (mods.map (·.fullName)).Nodup
  known : Known env mods
  exact : ∀ n, n ∈ mods.map (·.fullName) ↔ Needed env existing requested n
  sorts : ∃ rootToLeafOrder, sortModules (mods.map some) existing = some rootToLeafOrder ∧
    rootToLeafOrder.Perm mods

-- the loop after some rounds: what it added is new to both lists
structure Attaching (added : List String) (mods : List (Module W E)) (moduleList : List String) :
    Prop where
  known : Known env mods
  names : mods.map (·.fullName) = (requested.filter fun n => !existing.contains n) ++ added
  listed : moduleList = requested ++ added
  nodup : added.Nodup
  fresh : ∀ d ∈ added, d ∉ requested ∧ d ∉ coreModules env
  needed : ∀ n ∈ mods.map (·.fullName), Needed env existing requested n

end Definitions

section Rounds

variable {W E Schema : Type} {env : InstallEnv W E Schema}
  {existing requested added moduleList : List String} {mods : List (Module W E)} {n d : String}

theorem nodup_dedup (xs : List String) : (dedup xs).Nodup := by
  have hfold : ∀ acc : List String, acc.Nodup →
      (xs.foldl (fun acc x => if x ∈ acc then acc else acc ++ [x]) acc).Nodup := by
    induction xs with
    | nil => exact fun acc h => h
    | cons x xs ih =>
      intro acc hacc
      rw [List.foldl_cons]
      refine ih _ ?_
      split
      · exact hacc
      · next hx =>
        refine List.nodup_append.mpr ⟨hacc, by simp, fun a ha b hb heq => hx ?_⟩
        obtain rfl := List.mem_singleton.mp hb
        exact heq ▸ ha
  exact hfold [] List.nodup_nil

theorem mem_missingDeps : d ∈ missingDeps env mods moduleList existing ↔
    (∃ m ∈ mods, d ∈ m.dependencies) ∧ d ∉ moduleList ∧ d ∉ existing ∧ d ∉ coreModules env := by
  rw [missingDeps, mem_dedup]
  simp only [List.mem_filter, List.mem_flatMap, Bool.and_eq_true, Bool.not_eq_true',
    List.contains_eq_mem, decide_eq_false_iff_not]
  constructor
  · rintro ⟨⟨m, hm, hd, hlist, hex⟩, hcore⟩
    exact ⟨⟨m, hm, hd⟩, hlist, hex, hcore⟩
  · rintro ⟨⟨m, hm, hd⟩, hlist, hex, hcore⟩
    exact ⟨⟨m, hm, hd, hlist, hex⟩, hcore⟩

theorem mapM_findModule {names : List String} (h : ∀ n ∈ names, (findModule env n).isSome = true) :
    ∃ extraMods, names.mapM (findModule env) = some extraMods ∧
      extraMods.map (·.fullName) = names := by
  induction names with
  | nil => exact ⟨[], rfl, rfl⟩
  | cons n names ih =>
    obtain ⟨m, hm⟩ := Option.isSome_iff_exists.mp (h n (by simp))
    obtain ⟨extraMods, hextra, hnames⟩ := ih fun n' hn' => h n' (by simp [hn'])
    refine ⟨m :: extraMods, ?_, by rw [List.map_cons, hnames, fullName_of_find hm]⟩
    simp [List.mapM_cons, hm, hextra]

theorem Needed.dependency (h : Needed env existing requested n) (hd : DependsOnName env n d)
    (hnew : d ∉ existing) : Needed env existing requested d := by
  obtain ⟨-, a, ha, hex, hreach⟩ := h
  exact ⟨hnew, a, ha, hex, hreach.tail hd⟩

variable (hregistered : ∀ m ∈ env.allModules, ∀ d ∈ m.dependencies,
  (findModule env d).isSome = true)

theorem mem_of_findModule {m : Module W E} (h : findModule env n = some m) : m ∈ env.allModules :=
  List.mem_of_find?_eq_some h

theorem Attaching.next (h : Attaching env existing requested added mods moduleList)
    {extraMods : List (Module W E)}
    (hextra : (missingDeps env mods moduleList existing).mapM (findModule env) = some extraMods)
    (hnames : extraMods.map (·.fullName) = missingDeps env mods moduleList existing) :
    Attaching env existing requested (added ++ missingDeps env mods moduleList existing)
      (mods ++ extraMods) (moduleList ++ missingDeps env mods moduleList existing) where
  known m hm := by
    rcases List.mem_append.mp hm with hm | hm
    · exact h.known m hm
    · obtain ⟨n, -, hfind⟩ := mem_of_mapM_findModule hextra m hm
      rw [fullName_of_find hfind, hfind]
  names := by rw [List.map_append, h.names, hnames, List.append_assoc]
  listed := by rw [h.listed, List.append_assoc]
  nodup := by
    refine List.nodup_append.mpr ⟨h.nodup, nodup_dedup _, fun a ha b hb heq => ?_⟩
    obtain ⟨-, hlist, -⟩ := mem_missingDeps.mp hb
    exact hlist (by rw [h.listed, ← heq]; simp [ha])
  fresh d hd := by
    rcases List.mem_append.mp hd with hd | hd
    · exact h.fresh d hd
    · obtain ⟨-, hlist, -, hcore⟩ := mem_missingDeps.mp hd
      exact ⟨fun hmem => hlist (by rw [h.listed]; simp [hmem]), hcore⟩
  needed n hn := by
    rw [List.map_append, hnames] at hn
    rcases List.mem_append.mp hn with hn | hn
    · exact h.needed n hn
    · obtain ⟨⟨m, hm, hd⟩, -, hex, -⟩ := mem_missingDeps.mp hn
      exact (h.needed _ (List.mem_map.mpr ⟨m, hm, rfl⟩)).dependency ⟨m, h.known m hm, hd⟩ hex

theorem Attaching.length_le (h : Attaching env existing requested added mods moduleList) :
    added.length ≤ env.allModules.length := by
  have hsub : added ⊆ env.allModules.map (·.fullName) := by
    intro d hd
    have hmem : d ∈ mods.map (·.fullName) := by rw [h.names]; simp [hd]
    obtain ⟨m, hm, rfl⟩ := List.mem_map.mp hmem
    exact List.mem_map.mpr ⟨m, mem_of_findModule (h.known m hm), rfl⟩
  simpa using h.nodup.length_le_of_subset hsub

include hregistered

theorem attachDependencies_ends {fuel : Nat}
    (hfuel : env.allModules.length + 1 ≤ fuel + added.length)
    (h : Attaching env existing requested added mods moduleList) :
    ∃ out added' moduleList', attachDependencies env existing fuel mods moduleList = .returned out ∧
      Attaching env existing requested added' out moduleList' ∧
        missingDeps env out moduleList' existing = [] := by
  induction fuel generalizing added mods moduleList with
  | zero =>
    have hle := h.length_le
    omega
  | succ fuel ih =>
    rw [attachDependencies]
    cases hmissing : missingDeps env mods moduleList existing with
    | nil => exact ⟨mods, added, moduleList, rfl, h, hmissing⟩
    | cons d rest =>
      obtain ⟨extraMods, hextra, hnames⟩ :=
        @mapM_findModule _ _ _ _ (missingDeps env mods moduleList existing) fun n hn => by
          obtain ⟨⟨m, hm, hd⟩, -⟩ := mem_missingDeps.mp hn
          exact hregistered m (mem_of_findModule (h.known m hm)) n hd
      have hnext := h.next hextra hnames
      rw [hmissing] at hnext hextra
      simp only [List.isEmpty_cons, Bool.false_eq_true, ↓reduceIte, hextra]
      refine ih ?_ hnext
      rw [List.length_append, List.length_cons]
      omega

end Rounds

section Closure

variable {W E Schema : Type} {env : InstallEnv W E Schema}
  {existing requested added moduleList : List String} {mods : List (Module W E)} {n d : String}

theorem Attaching.mem_names (h : Attaching env existing requested added mods moduleList) :
    n ∈ mods.map (·.fullName) ↔ n ∈ requested ∧ n ∉ existing ∨ n ∈ added := by
  rw [h.names]
  simp

theorem Attaching.dependency_mem (h : Attaching env existing requested added mods moduleList)
    (hdone : missingDeps env mods moduleList existing = []) (hn : n ∈ mods.map (·.fullName))
    (hd : DependsOnName env n d) (hnew : d ∉ existing)
    (hcore : d ∈ coreModules env → d ∈ requested) : d ∈ mods.map (·.fullName) := by
  obtain ⟨m, hm, rfl⟩ := List.mem_map.mp hn
  obtain ⟨m', hfind, hdep⟩ := hd
  obtain rfl := Option.some.inj ((h.known m hm).symm.trans hfind)
  by_contra hout
  rw [h.mem_names, not_or] at hout
  have hlist : d ∉ moduleList := by
    rw [h.listed, List.mem_append]
    rintro (hreq | hadded)
    · exact hout.1 ⟨hreq, hnew⟩
    · exact hout.2 hadded
  have hmissing : d ∈ missingDeps env mods moduleList existing :=
    mem_missingDeps.mpr ⟨⟨m, hm, hdep⟩, hlist, hnew, fun hin =>
      hout.1 ⟨hcore hin, hnew⟩⟩
  rw [hdone] at hmissing
  cases hmissing

variable (hclosed : ∀ n ∈ existing, ∀ d, DependsOnName env n d → d ∈ existing)

include hclosed

theorem Needed.induct {P : String → Prop} (hn : Needed env existing requested n)
    (hbase : ∀ a ∈ requested, a ∉ existing → P a)
    (hstep : ∀ b d, Needed env existing requested b → DependsOnName env b d → d ∉ existing →
      P b → P d) : P n := by
  obtain ⟨hnew, a, ha, hex, hreach⟩ := hn
  induction hreach with
  | refl => exact hbase a ha hex
  | @tail b d hab hbd ih =>
    have hb : b ∉ existing := fun hmem => hnew (hclosed b hmem d hbd)
    exact hstep b d ⟨hb, a, ha, hex, hab⟩ hbd hnew (ih hb)

theorem Attaching.complete (h : Attaching env existing requested added mods moduleList)
    (hdone : missingDeps env mods moduleList existing = [])
    (hcore : ∀ n, Needed env existing requested n → n ∈ coreModules env → n ∈ requested)
    (hn : Needed env existing requested n) : n ∈ mods.map (·.fullName) :=
  hn.induct hclosed (fun _ ha hex => h.mem_names.mpr (.inl ⟨ha, hex⟩)) fun _ d hb hbd hnew hin =>
    h.dependency_mem hdone hin hbd hnew (hcore d (hb.dependency hbd hnew))

end Closure

section Sorting

variable {W E Schema : Type} {env : InstallEnv W E Schema}
  {existing requested names : List String} {mods out : List (Module W E)} {n : String}

theorem Respects.idxOf_lt (h : Respects existing out) (hknown : Known env out)
    (hnodup : (out.map (·.fullName)).Nodup) {n d : String} (hn : n ∈ out.map (·.fullName))
    (hd : DependsOnName env n d) (hnew : d ∉ existing) :
    (out.map (·.fullName)).idxOf d < (out.map (·.fullName)).idxOf n := by
  obtain ⟨m, hm, rfl⟩ := List.mem_map.mp hn
  obtain ⟨m', hfind, hdep⟩ := hd
  obtain rfl := Option.some.inj ((hknown m hm).symm.trans hfind)
  obtain ⟨l₁, l₂, rfl⟩ := List.append_of_mem hm
  obtain ⟨m', hm', rfl⟩ := (h.split rfl d hdep).resolve_left hnew
  have hbefore : m'.fullName ∈ l₁.map (·.fullName) := List.mem_map.mpr ⟨m', hm', rfl⟩
  have hnot : m.fullName ∉ l₁.map (·.fullName) := by
    rw [List.map_append, List.map_cons, List.nodup_append] at hnodup
    exact fun hmem => hnodup.2.2 _ hmem _ (by simp) rfl
  rw [List.map_append, List.map_cons, List.idxOf_append_of_mem hbefore,
    List.idxOf_append_of_notMem hnot, List.idxOf_cons_self, Nat.add_zero]
  exact List.idxOf_lt_length_of_mem hbefore

variable (hclosed : ∀ n ∈ existing, ∀ d, DependsOnName env n d → d ∈ existing)

include hclosed

theorem transGen_needed {d : String} (hn : Needed env existing requested n)
    (h : TransGen (DependsOnName env) n d) (hnew : d ∉ existing) :
    TransGen (fun a b => Needed env existing requested a ∧ Needed env existing requested b ∧
      DependsOnName env a b) n d ∧ Needed env existing requested d := by
  induction h with
  | single hnd => exact ⟨.single ⟨hn, hn.dependency hnd hnew, hnd⟩, hn.dependency hnd hnew⟩
  | @tail b d _ hbd ih =>
    obtain ⟨hpath, hb⟩ := ih fun hmem => hnew (hclosed b hmem d hbd)
    exact ⟨hpath.tail ⟨hb, hb.dependency hbd hnew, hbd⟩, hb.dependency hbd hnew⟩

theorem Attached.acyclic (h : Attached env existing requested mods)
    (hn : Needed env existing requested n) : ¬ TransGen (DependsOnName env) n n := by
  obtain ⟨out, hout, hperm⟩ := h.sorts
  have hmem : ∀ b, b ∈ out.map (·.fullName) ↔ Needed env existing requested b := fun b =>
    (hperm.map _).mem_iff.trans (h.exact b)
  have hnodup : (out.map (·.fullName)).Nodup := (hperm.map _).nodup_iff.mpr h.once
  have hknown : Known env out := fun m hm => h.known m (hperm.mem_iff.mp hm)
  have hrespects := (sortLoop_some hout).2
  intro hcycle
  refine Acyclic.of_rank (fun b => (out.map (·.fullName)).idxOf b) ?_ n
    (transGen_needed hclosed hn hcycle hn.1).1
  rintro a b ⟨ha, hb, hab⟩
  exact hrespects.idxOf_lt hknown hnodup ((hmem a).mpr ha) hab hb.1

omit hclosed in
theorem sortable_of_exact (hknown : Known env mods)
    (hexact : ∀ n, n ∈ mods.map (·.fullName) ↔ Needed env existing requested n)
    (hacyclic : ∀ n, Needed env existing requested n → ¬ TransGen (DependsOnName env) n n) :
    Sortable mods existing where
  closed m hm d hd := by
    by_cases hex : d ∈ existing
    · exact .inl hex
    · have hm' : Needed env existing requested m.fullName :=
        (hexact _).mp (List.mem_map.mpr ⟨m, hm, rfl⟩)
      obtain ⟨m', hmem, hname⟩ := List.mem_map.mp
        ((hexact d).mpr (hm'.dependency ⟨m, hknown m hm, hd⟩ hex))
      exact .inr ⟨m', hmem, hname⟩
  acyclic m hcycle := by
    have hlift : TransGen (DependsOnName env) m.fullName m.fullName :=
      hcycle.lift (·.fullName) fun a b hab => ⟨a, hknown a hab.1, hab.2.2⟩
    obtain ⟨m', ⟨hm, -⟩, -⟩ := TransGen.head'_iff.mp hcycle
    exact hacyclic _ ((hexact _).mp (List.mem_map.mpr ⟨m, hm, rfl⟩)) hlift

end Sorting

section Install

variable {W E Schema : Type} {env : InstallEnv W E Schema} {registry : Registry}
  {moduleList : List String} {force : Bool} {s : Session Schema}

-- the list of the request once every name has its version
def requestedNames (env : InstallEnv W E Schema) (moduleList : List String) : List String :=
  (dedup moduleList).map (withVersion env)

theorem nodup_requestedNames_iff {existing : List String} :
    ((requestedNames env moduleList).filter fun n => !existing.contains n).Nodup ↔
      ∀ a ∈ moduleList, ∀ b ∈ moduleList, withVersion env a = withVersion env b →
        withVersion env a ∉ existing → a = b := by
  rw [requestedNames, List.filter_map, List.nodup_map_iff_inj_on ((nodup_dedup _).filter _)]
  simp only [List.mem_filter, mem_dedup, Function.comp, Bool.not_eq_true',
    List.contains_eq_mem, decide_eq_false_iff_not]
  constructor
  · intro h a ha b hb heq hnew
    exact h a ⟨ha, hnew⟩ b ⟨hb, heq ▸ hnew⟩ heq
  · intro h a ha b hb heq
    exact h a ha.1 b hb.1 heq ha.2

theorem filterMap_names {names : List String}
    (h : ∀ n ∈ names, (findModule env n).isSome = true) (p : String → Bool) :
    ((names.filterMap (findModule env)).filter fun m => p m.fullName).map (·.fullName) =
      names.filter p := by
  induction names with
  | nil => rfl
  | cons n names ih =>
    obtain ⟨m, hm⟩ := Option.isSome_iff_exists.mp (h n (by simp))
    have hrest := ih fun n' hn' => h n' (by simp [hn'])
    rw [List.filterMap_cons_some hm, List.filter_cons, List.filter_cons, fullName_of_find hm]
    split
    · rw [List.map_cons, hrest, fullName_of_find hm]
    · exact hrest

variable (hready : (!force && env.upgrading) = false) (hversion : env.version = env.versionString)
  (hregistered : ∀ m ∈ env.allModules, ∀ d ∈ m.dependencies, (findModule env d).isSome = true)
  (hclosed : ∀ n ∈ registry.iasqlModule, ∀ d, DependsOnName env n d → d ∈ registry.iasqlModule)
  (hrequested : ∀ n ∈ moduleList, (findModule env (withVersion env n)).isSome = true)

include hready hversion hrequested in
theorem findMods_eq : findMods env registry moduleList false force s =
    ofOutcome (attachDependencies env registry.iasqlModule (env.allModules.length + 1)
      (((requestedNames env moduleList).filterMap (findModule env)).filter fun m =>
        !registry.iasqlModule.contains m.fullName) (requestedNames env moduleList)) s := by
  have hmissing : missingModules env ((dedup moduleList).map (withVersion env)) = [] := by
    rw [missingModules, List.filter_eq_nil_iff]
    intro n hn
    obtain ⟨a, ha, rfl⟩ := List.mem_map.mp hn
    simpa [Option.isSome_iff_ne_none] using hrequested a (mem_dedup.mp ha)
  simp only [findMods, hready, hversion, hmissing, requestedNames, bne_self_eq_false,
    Bool.false_eq_true, ↓reduceIte, List.isEmpty_nil, Bool.not_true, throwIf]
  rfl

include hready hversion hregistered hclosed hrequested

-- the loop always ends, and with the modules to install when no module is asked for in two
-- spellings, no built-in module is missing and no dependency leads back
theorem findMods_attaches_iff :
    (∃ mods, findMods env registry moduleList false force s = (.returned mods, s)) ∧
      ((∃ mods, findMods env registry moduleList false force s = (.returned mods, s) ∧
          Attached env registry.iasqlModule (requestedNames env moduleList) mods) ↔
        (∀ a ∈ moduleList, ∀ b ∈ moduleList, withVersion env a = withVersion env b →
          withVersion env a ∉ registry.iasqlModule → a = b) ∧
        (∀ n, Needed env registry.iasqlModule (requestedNames env moduleList) n →
          n ∈ coreModules env → n ∈ requestedNames env moduleList) ∧
        ∀ n, Needed env registry.iasqlModule (requestedNames env moduleList) n →
          ¬ TransGen (DependsOnName env) n n) := by
  let existing := registry.iasqlModule
  let requested := requestedNames env moduleList
  have hfound : ∀ n ∈ requested, (findModule env n).isSome = true := by
    intro n hn
    obtain ⟨a, ha, rfl⟩ := List.mem_map.mp hn
    exact hrequested a (mem_dedup.mp ha)
  have hstart : Attaching env existing requested []
      ((requested.filterMap (findModule env)).filter fun m => !existing.contains m.fullName)
      requested := by
    have hnames := filterMap_names hfound fun n => !existing.contains n
    refine ⟨fun m hm => known_filterMap m (List.mem_filter.mp hm).1, ?_, by simp, by simp, by simp,
      fun n hn => ?_⟩
    · rw [hnames, List.append_nil]
    · rw [hnames, List.mem_filter] at hn
      have hnew : n ∉ existing := by simpa using hn.2
      exact ⟨hnew, n, hn.1, hnew, .refl⟩
  obtain ⟨out, added, moduleList', hrun, hout, hdone⟩ :=
    attachDependencies_ends hregistered (Nat.le_refl (env.allModules.length + 1)) hstart
  have hmods : findMods env registry moduleList false force s = (.returned out, s) := by
    rw [findMods_eq hready hversion hrequested, hrun]
    rfl
  refine ⟨⟨out, hmods⟩, ?_, ?_⟩
  · rintro ⟨mods, hmods', hattached⟩
    rw [hmods] at hmods'
    cases hmods'
    refine ⟨nodup_requestedNames_iff.mp ?_, fun n hn hcore => ?_, fun n hn =>
      hattached.acyclic hclosed hn⟩
    · have honce := hattached.once
      rw [hout.names, List.nodup_append] at honce
      exact honce.1
    · rcases hout.mem_names.mp ((hattached.exact n).mpr hn) with hreq | hadded
      · exact hreq.1
      · exact absurd hcore (hout.fresh n hadded).2
  · rintro ⟨hdistinct, hcore, hacyclic⟩
    have hexact : ∀ n, n ∈ out.map (·.fullName) ↔ Needed env existing requested n := fun n =>
      ⟨hout.needed n, hout.complete hclosed hdone hcore⟩
    refine ⟨out, hmods, ?_, hout.known, hexact, ?_⟩
    · rw [hout.names]
      refine List.nodup_append.mpr ⟨nodup_requestedNames_iff.mpr hdistinct, hout.nodup, ?_⟩
      intro a ha b hb heq
      exact (hout.fresh b hb).1 (heq ▸ (List.mem_filter.mp ha).1)
    · obtain ⟨order, horder, hperm, -⟩ :=
        sortModules_sorts (sortable_of_exact hout.known hexact hacyclic)
      exact ⟨order, horder, hperm⟩

omit hready hversion hregistered hclosed hrequested

theorem platformEnv_noCycle (n : String) : ¬ TransGen (DependsOnName platformEnv) n n := by
  intro hcycle
  have hfound : ∀ a b, DependsOnName platformEnv a b → (findModule platformEnv b).isSome = true := by
    rintro a b ⟨m, hfind, hd⟩
    have hall : ∀ m ∈ platformEnv.allModules, ∀ d ∈ m.dependencies,
        (findModule platformEnv d).isSome = true := by decide +kernel
    exact hall m (mem_of_findModule hfind) b hd
  refine Acyclic.of_rank (fun a => ((findModule platformEnv a).map (·.dependencies.length)).getD 0)
    ?_ n hcycle
  rintro a b ⟨m, hfind, hd⟩
  obtain ⟨m', hfind'⟩ := Option.isSome_iff_exists.mp (hfound a b ⟨m, hfind, hd⟩)
  have hall : ∀ m ∈ platformEnv.allModules, ∀ m' ∈ platformEnv.allModules,
      m'.fullName ∈ m.dependencies → m'.dependencies.length < m.dependencies.length := by
    decide +kernel
  have hlt := hall m (mem_of_findModule hfind) m' (mem_of_findModule hfind')
    (by rwa [fullName_of_find hfind'])
  simpa [hfind, hfind'] using hlt

theorem vpc_attached :
    ∃ mods, findMods platformEnv (migrated platformEnv) ["aws_vpc"] false false freshSession =
        (.returned mods, freshSession) ∧
      Attached platformEnv (migrated platformEnv).iasqlModule ["aws_vpc@0.0.1"] mods := by
  have hnames : requestedNames platformEnv ["aws_vpc"] = ["aws_vpc@0.0.1"] := by decide +kernel
  have hiff := (@findMods_attaches_iff _ _ _ platformEnv (migrated platformEnv) ["aws_vpc"] false freshSession
    (by decide) (by decide) (by decide +kernel) ?_ (by decide +kernel)).2
  · rw [hnames] at hiff
    refine hiff.mpr ⟨by simp, fun n hn hcore => absurd hcore hn.1, fun n _ => platformEnv_noCycle n⟩
  · rintro n hn d ⟨m, hfind, hd⟩
    have hall : ∀ n ∈ (migrated platformEnv).iasqlModule, ∀ m ∈ platformEnv.allModules,
        m.fullName = n → ∀ d ∈ m.dependencies, d ∈ (migrated platformEnv).iasqlModule := by
      decide +kernel
    exact hall n hn m (mem_of_findModule hfind) (fullName_of_find hfind) d hd

-- the two spellings are told apart before the version is added
theorem two_spellings_attached_twice :
    findMods platformEnv (migrated platformEnv) ["aws_account", "aws_account@0.0.1"] false false
        freshSession = (.returned [awsAccount, awsAccount], freshSession) ∧
      ¬ ([awsAccount, awsAccount].map (·.fullName)).Nodup := by
  exact ⟨rfl, by decide⟩

end Install

end Iasql
