import Iasql.CommitGuard
import Iasql.InstalledSet
import Iasql.Recreation

namespace Iasql

open Program Prog Runs

section Retained

variable {W E Schema : Type} {env : InstallEnv W E Schema} {md : Module W E} {R : Frame Registry}

def registryFrame (Schema : Type) (R : Frame Registry) : Frame (Session Schema) where
  rel s t := R.rel s.registry t.registry
  refl _ := R.refl _
  trans h k := R.trans h k

-- the modules with other names stay installed
def retaining (names : List String) : Frame Registry where
  rel r r' := ∀ n ∈ r.iasqlModule, n ∉ names → n ∈ r'.iasqlModule
  refl _ _ hn _ := hn
  trans h k n hn hnot := k n (h n hn hnot) hnot

theorem registry_of_session {α : Type} {p : Prog (Session Schema) Thrown α}
    (h : (sessionFrame Schema R).Keeps p) : (registryFrame Schema R).Keeps p := fun s => (h s).2

theorem registry_of_still {α : Type} {p : Prog (Session Schema) Thrown α}
    (h : (stillFrame (Session Schema)).Keeps p) : (registryFrame Schema R).Keeps p := by
  intro s
  have hstill : (p s).2 = s := h s
  rw [hstill]
  exact (registryFrame Schema R).refl s

theorem keeps_inTransaction {body : Prog (Session Schema) Thrown Unit}
    (h : (registryFrame Schema R).Keeps body) :
    (registryFrame Schema R).Keeps (inTransaction env body) := by
  have hcommit : (registryFrame Schema R).Keeps (commitTransaction env) := by
    intro s
    rw [commitTransaction_apply]
    cases env.commitFault (s.transaction.getD s.schema) <;> exact R.refl _
  refine Frame.keeps_bind (fun s => R.refl s.registry) fun _ => ?_
  refine Frame.keeps_bind (Frame.keeps_attempt (Frame.keeps_bind h fun _ => hcommit)) ?_
  rintro (e | _)
  · exact Frame.keeps_bind (fun s => R.refl s.registry) fun _ => Frame.keeps_fail _
  · exact Frame.keeps_pure _

theorem iasqlInstall_grows (params : List String) :
    (registryFrame Schema growingRegistry).Keeps (iasqlInstall env params) := by
  refine Frame.keeps_bind ?_ fun _ => registry_of_session (keeps_ormCall fun r => List.Subset.refl _)
  refine Frame.keeps_bind (registry_of_still (still_installOrder params false false)) fun order => ?_
  exact Frame.keeps_ite (Frame.keeps_pure _)
    (keeps_inTransaction (registry_of_session (installs_grow order)))

theorem uninstallModule_retains {names : List String} (h : md.fullName ∈ names) :
    (registryFrame Schema (retaining names)).Keeps (uninstallModule env md) := by
  have hdetach : (registryFrame Schema (retaining names)).Keeps (detachModule env md) := by
    intro s
    have hsame : (detachModule env md s).2.registry = s.registry := (detachModule_keeps s).2
    change (retaining names).rel _ _
    rw [hsame]
    exact (retaining names).refl _
  refine Frame.keeps_bind_of hdetach fun s found t hfound => ?_
  have hname : found.1 = md.fullName := (detachModule_finds s found t trivial hfound).1
  refine Frame.keeps_bind (registry_of_session (keeps_ormCall fun r n hn _ => hn)) (fun _ => ?_) t
  refine registry_of_session (keeps_ormCall fun r n hn hnot => ?_)
  refine List.mem_filter.mpr ⟨hn, ?_⟩
  rw [hname]
  simpa using fun heq : n = md.fullName => hnot (heq ▸ h)

theorem uninstallOrder_named {params : List String} :
    Returns (fun _ : Session Schema => True) (uninstallOrder env (withoutBuiltIns params) false)
      fun order _ => ∀ m ∈ order, m.fullName ∈ uninstallNames env params := by
  refine returns_bind (returns_any _) fun _ => ?_
  refine returns_bind (returns_any _) fun _ => ?_
  refine returns_bind (returns_any _) fun existing => ?_
  refine returns_ite (returns_pure fun _ _ => by simp) ?_
  refine returns_bind (returns_any _) fun _ => ?_
  refine returns_bind (returns_any _) fun _ => ?_
  refine returns_bind sortedOrder_subset fun order => returns_pure fun _ hsub m hm => ?_
  exact named_sublist.subset (List.mem_map_of_mem (hsub m (List.mem_reverse.mp hm)))

theorem iasqlUninstall_retains (params : List String) :
    (registryFrame Schema (retaining (uninstallNames env params))).Keeps
      (iasqlUninstall env params) := by
  refine Frame.keeps_bind (registry_of_session (keeps_ormCall fun r n hn _ => hn)) fun _ => ?_
  refine Frame.keeps_bind_of (registry_of_still (still_uninstallOrder _ false))
    fun s order t horder => ?_
  have hnamed := uninstallOrder_named s order t trivial horder
  refine Frame.keeps_ite (Frame.keeps_pure _) (keeps_inTransaction (Frame.keeps_each ?_)) t
  exact fun m hm => uninstallModule_retains (hnamed m hm)

end Retained

structure Site (Schema : Type) where
  session : Session Schema
  auditLog : List IasqlAuditLog := []

inductive SiteAction (Schema : Type) where
  | log (a : LogAction)
  | call (a : ModuleCall Schema)

section Sites

variable {W E Schema : Type} (env : InstallEnv W E Schema) (cfg : Config) (pl : LogPlanner)

-- row changes are logged by the trigger, and insertLog is called for markers only
def ByTrigger : LogAction → Prop
  | .rowChange row => TriggerRow row
  | .insertLog t _ _ _ => t.isRowChange = false
  | _ => True

-- begin, commit and rollback are what they do to the log, one write at a time
def siteStep (s : Site Schema) : SiteAction Schema → Site Schema → Prop
  | .log a, t => t.session = s.session ∧ ByTrigger a ∧ logStep cfg pl s.auditLog a t.auditLog
  | .call a, t => t = { s with session := afterCall env s.session a }

def Provided (registry : Registry) (table : String) : Prop :=
  ∃ m ∈ env.allModules, m.fullName ∈ registry.iasqlModule ∧ table ∈ m.tables

-- no table of a logged change loses the module that provides it
def KeepsTables (s : Site Schema) : SiteAction Schema → Prop
  | .log (.rowChange row) => Provided env s.session.registry row.tableName
  | .call (.uninstall params) => ∀ l ∈ s.auditLog, l.changeType.isRowChange = true →
    ∃ m ∈ env.allModules, m.fullName ∈ s.session.registry.iasqlModule ∧ l.tableName ∈ m.tables ∧
      m.fullName ∉ uninstallNames env params
  | _ => True

def SiteRun (ok : Site Schema → SiteAction Schema → Prop) : Site Schema → Prop :=
  RunFrom (fun s => s.auditLog = []) (siteStep env cfg pl) ok

structure Covered (registry : Registry) (log : List IasqlAuditLog) : Prop where
  rows : ∀ l ∈ log, l.changeType.isRowChange = true →
    TriggerRow l ∧ Provided env registry l.tableName
  others : ∀ l ∈ log, l.changeType.isRowChange = false → l.user = cfg.dbUser

variable {env cfg pl} {registry : Registry} {log : List IasqlAuditLog}

theorem Covered.saveLog {row : IasqlAuditLog} (h : Covered env cfg registry log)
    (hrow : row.changeType.isRowChange = true →
      TriggerRow row ∧ Provided env registry row.tableName)
    (hother : row.changeType.isRowChange = false → row.user = cfg.dbUser) :
    Covered env cfg registry (saveLog log row) where
  rows l hl hkind := by
    rcases List.mem_append.mp hl with hl | hl
    · exact h.rows l hl hkind
    · obtain rfl := List.mem_singleton.mp hl
      exact hrow hkind
  others l hl hkind := by
    rcases List.mem_append.mp hl with hl | hl
    · exact h.others l hl hkind
    · obtain rfl := List.mem_singleton.mp hl
      exact hother hkind

theorem triggerRow_associated (changes : List IasqlAuditLog) (tx : Option String)
    {l : IasqlAuditLog} : TriggerRow (associated changes tx l) ↔ TriggerRow l := by
  simp [TriggerRow]

theorem Covered.associate (h : Covered env cfg registry log) (changes : List IasqlAuditLog)
    (tx : Option String) : Covered env cfg registry (associateTransaction log changes tx) where
  rows l hl hkind := by
    obtain ⟨l', hl', rfl⟩ := List.mem_map.mp hl
    rw [triggerRow_associated, associated_tableName]
    exact h.rows l' hl' (by simpa using hkind)
  others l hl hkind := by
    obtain ⟨l', hl', rfl⟩ := List.mem_map.mp hl
    rw [associated_user]
    exact h.others l' hl' (by simpa using hkind)

theorem Covered.recordsSince (h : Covered env cfg registry log) (t : AuditLogChangeType)
    (tx : Option String) : Covered env cfg registry (updateIasqlRecordsSince cfg pl log t tx) := by
  unfold updateIasqlRecordsSince
  split
  · exact h
  · exact h.associate _ _

theorem Covered.log_step {a : LogAction} {log' : List IasqlAuditLog}
    (h : Covered env cfg registry log) (htrigger : ByTrigger a)
    (hprovided : ∀ row, a = .rowChange row → Provided env registry row.tableName)
    (hstep : logStep cfg pl log a log') : Covered env cfg registry log' := by
  cases a with
  | rowChange row =>
    obtain ⟨hkind, rfl⟩ := hstep
    exact h.saveLog (fun _ => ⟨htrigger, hprovided row rfl⟩) fun hnot => by simp [hkind] at hnot
  | insertLog t ts tx msg =>
    subst hstep
    refine h.saveLog (fun hkind => ?_) fun _ => rfl
    have hmarker : t.isRowChange = false := htrigger
    rw [newLog_changeType, hmarker] at hkind
    cases hkind
  | insertErrorLog ts err tx =>
    subst hstep
    exact h.saveLog (fun hkind => by cases hkind) fun _ => rfl
  | associate changes tx =>
    subst hstep
    exact h.associate changes tx
  | recordsSince t tx =>
    subst hstep
    exact h.recordsSince t tx

theorem Provided.mono {registry' : Registry} (h : registry.iasqlModule ⊆ registry'.iasqlModule)
    {table : String} (hp : Provided env registry table) : Provided env registry' table := by
  obtain ⟨m, hm, hin, htable⟩ := hp
  exact ⟨m, hm, h hin, htable⟩

theorem Covered.site_step {s t : Site Schema} {a : SiteAction Schema}
    (h : Covered env cfg s.session.registry s.auditLog) (hok : KeepsTables env s a)
    (hstep : siteStep env cfg pl s a t) : Covered env cfg t.session.registry t.auditLog := by
  cases a with
  | log a =>
    obtain ⟨hsession, htrigger, hlog⟩ := hstep
    rw [hsession]
    refine h.log_step htrigger ?_ hlog
    rintro row rfl
    exact hok
  | call a =>
    subst hstep
    cases a with
    | install params =>
      have hgrows : s.session.registry.iasqlModule ⊆
          (iasqlInstall env params s.session).2.registry.iasqlModule :=
        iasqlInstall_grows params s.session
      exact ⟨fun l hl hkind => (h.rows l hl hkind).imp_right (Provided.mono hgrows), h.others⟩
    | uninstall params =>
      have hretains := @iasqlUninstall_retains _ _ _ env params s.session
      refine ⟨fun l hl hkind => ⟨(h.rows l hl hkind).1, ?_⟩, h.others⟩
      obtain ⟨m, hm, hin, htable, hnot⟩ := hok l hl hkind
      exact ⟨m, hm, hretains _ hin hnot, htable⟩
    | sql statements => exact ⟨h.rows, h.others⟩

theorem covered_of_run {s : Site Schema} (h : SiteRun env cfg pl (KeepsTables env) s) :
    Covered env cfg s.session.registry s.auditLog := by
  refine RunFrom.invariant (I := fun s => Covered env cfg s.session.registry s.auditLog) h ?_ ?_
  · intro s hempty
    rw [hempty]
    exact ⟨by simp, by simp⟩
  · intro s a t hcovered hok hstep
    exact hcovered.site_step hok hstep

end Sites

section Classified

variable {W E Schema : Type} (env : InstallEnv W E Schema) (cfg : Config) (pl : LogPlanner)

-- both functions find the module of every change, and throw nothing of their own
structure Classified (changes : List IasqlAuditLog) (mods : List (Module W E)) : Prop where
  found : Found changes mods
  written : ∀ c ∈ changes, TriggerRow c
  byEntity : ∀ Q,
    (∀ mod ∈ mods, ∀ m ∈ mod.mappers, ∀ c ∈ changes, ThrowsOnly Q (m.changedEntities c)) →
      ThrowsOnly Q (getChangesByEntity changes (indexModsByTable mods))
  recreated : ∀ (lookups : Lookups W) Q,
    (∀ metadata e, ThrowsOnly Q (lookups.recreateRelations metadata e)) →
      ThrowsOnly Q
        (recreateEntitiesFromChangelogs lookups (indexModsByTable mods) changes fun _ => [])

def installedModules (registry : Registry) : List (Module W E) :=
  env.allModules.filter fun mod => registry.iasqlModule.contains mod.fullName

def changedModules (registry : Registry) (changes : List IasqlAuditLog) :
    List (Option (Module W E)) :=
  getModulesWithChanges env.allModules (installedModules env registry) registry.iasqlModule
    (tablesOf changes) env.versionString

def getChangeLogs (limitDate : Option Nat) (log : List IasqlAuditLog) : List IasqlAuditLog :=
  oldestFirst (log.filter fun l => l.changeType.isRowChange &&
    match limitDate with
    | some ts => ts < l.ts
    | none => true)

-- what the two functions are given by commit, by the look at later changes, by revert and by
-- the two get-sql calls
structure Classifies (registry : Registry) (log : List IasqlAuditLog) : Prop where
  commit : ∀ start prev mods,
    sortModules (changedModules env registry (getChangesToCommit cfg pl log start prev))
      registry.iasqlModule = some mods → Classified (getChangesToCommit cfg pl log start prev) mods
  after : ∀ startedAt mods,
    changedModules env registry (getChangesAfterCommit cfg pl log startedAt) = mods.map some →
      Classified (getChangesAfterCommit cfg pl log startedAt) mods
  revert : ∀ rows mods, getChangeLogsSinceLastBegin pl log = some rows →
    sortModules ((installedModules env registry).map some) registry.iasqlModule = some mods →
      Classified rows mods
  transaction : ∀ transactionId rows,
    getUserChangeLogsByTransaction cfg pl log transactionId = some rows →
      Classified rows (installedModules env registry)
  since : ∀ limitDate, Classified (getChangeLogs limitDate log) (installedModules env registry)

variable {env cfg pl} {registry : Registry} {log changes : List IasqlAuditLog}
  {mods : List (Module W E)}

theorem classified_of_found (hfound : Found changes mods) (hwritten : ∀ c ∈ changes, TriggerRow c) :
    Classified changes mods where
  found := hfound
  written := hwritten
  byEntity _ h := throwsOnly_getChangesByEntity hfound h
  recreated _ _ h := throwsOnly_recreateEntitiesFromChangelogs h hfound hwritten _

theorem Covered.classified (h : Covered env cfg registry log)
    (hsub : ∀ c ∈ changes, c ∈ log ∧ c.changeType.isRowChange = true)
    (hmods : ∀ m ∈ installedModules env registry, (∃ c ∈ changes, c.tableName ∈ m.tables) → m ∈ mods) :
    Classified changes mods := by
  refine classified_of_found (fun c hc => ?_) fun c hc => (h.rows c (hsub c hc).1 (hsub c hc).2).1
  obtain ⟨m, hm, hin, htable⟩ := (h.rows c (hsub c hc).1 (hsub c hc).2).2
  have hinstalled : m ∈ installedModules env registry :=
    List.mem_filter.mpr ⟨hm, by simpa using hin⟩
  exact indexModsByTable_isSome (hmods m hinstalled ⟨c, hc, htable⟩) htable

theorem Covered.isRowChange (h : Covered env cfg registry log) {l : IasqlAuditLog} (hl : l ∈ log)
    (huser : l.user ≠ cfg.dbUser) : l.changeType.isRowChange = true := by
  by_contra hkind
  exact huser (h.others l hl (by simpa using hkind))

theorem mem_tablesOf {c : IasqlAuditLog} (hc : c ∈ changes) : c.tableName ∈ tablesOf changes :=
  mem_dedup.mpr (List.mem_map_of_mem hc)

theorem mem_changedModules {m : Module W E} (hm : m ∈ installedModules env registry)
    (h : ∃ c ∈ changes, c.tableName ∈ m.tables) : some m ∈ changedModules env registry changes := by
  obtain ⟨c, hc, htable⟩ := h
  refine List.mem_append_left _ (List.mem_map_of_mem (List.mem_filter.mpr ⟨hm, ?_⟩))
  exact List.any_eq_true.mpr ⟨c.tableName, htable, by simpa using mem_tablesOf hc⟩

theorem mem_oldestFirst {rows : List IasqlAuditLog} {c : IasqlAuditLog} :
    c ∈ oldestFirst rows ↔ c ∈ rows := List.mem_insertionSort _

-- every dependency is the name of a module
def DependenciesRegistered (env : InstallEnv W E Schema) : Prop :=
  ∀ m ∈ env.allModules, ∀ d ∈ m.dependencies, ∃ m' ∈ env.allModules, m'.fullName = d

theorem changedModules_some (hreg : DependenciesRegistered env) :
    ∃ mods : List (Module W E), changedModules env registry changes = mods.map some := by
  have hall : ∀ o ∈ changedModules env registry changes, ∃ m, o = some m := by
    intro o ho
    rcases List.mem_append.mp ho with ho | ho
    · obtain ⟨m, -, rfl⟩ := List.mem_map.mp ho
      exact ⟨m, rfl⟩
    · obtain ⟨n, hn, rfl⟩ := List.mem_map.mp ho
      obtain ⟨m, hm, hd⟩ := List.mem_flatMap.mp (List.mem_filter.mp (mem_dedup.mp hn)).1
      have hmem : m ∈ env.allModules := List.mem_of_mem_filter (List.mem_of_mem_filter hm)
      obtain ⟨m', hm', hname⟩ := hreg m hmem n (List.mem_filter.mp hd).1
      have hsome : (env.allModules.find? fun m => m.fullName == n).isSome = true :=
        List.find?_isSome.mpr ⟨m', hm', by simpa using hname⟩
      exact Option.isSome_iff_exists.mp hsome
  generalize changedModules env registry changes = os at hall
  induction os with
  | nil => exact ⟨[], rfl⟩
  | cons o os ih =>
    obtain ⟨m, rfl⟩ := hall o (by simp)
    obtain ⟨ms, rfl⟩ := ih fun o' ho' => hall o' (by simp [ho'])
    exact ⟨m :: ms, rfl⟩

theorem Covered.classifies (h : Covered env cfg registry log) (hreg : DependenciesRegistered env) :
    Classifies env cfg pl registry log where
  commit start prev mods hsorted := by
    refine h.classified (fun c hc => ?_) fun m hm hc => ?_
    · obtain ⟨hl, -, -, huser⟩ := mem_getChangesToCommit.mp hc
      exact ⟨hl, h.isRowChange hl huser⟩
    · obtain ⟨changed, hchanged⟩ := @changedModules_some _ _ _ _ registry
        (getChangesToCommit cfg pl log start prev) hreg
      have hmem := mem_changedModules hm hc
      rw [hchanged] at hmem hsorted
      exact (sortLoop_some hsorted).1.mem_iff.mpr (by simpa using hmem)
  after startedAt mods hchanged := by
    refine h.classified (fun c hc => ?_) fun m hm hc => ?_
    · cases startedAt with
      | none => simp [getChangesAfterCommit] at hc
      | some ts =>
        obtain ⟨hl, -, -, huser⟩ := mem_getChangesAfterCommit.mp hc
        exact ⟨hl, h.isRowChange hl huser⟩
    · have hmem := mem_changedModules hm hc
      rw [hchanged] at hmem
      simpa using hmem
  revert rows mods hrows hsorted := by
    refine h.classified (fun c hc => ?_) fun m hm _ => (sortLoop_some hsorted).1.mem_iff.mpr hm
    obtain ⟨transaction, ht, rfl⟩ := Option.map_eq_some_iff.mp hrows
    obtain ⟨hl, hkind, -⟩ := (mem_getChangeLogsSinceLastBegin ht hrows).mp hc
    exact ⟨hl, hkind⟩
  transaction transactionId rows hrows := by
    refine h.classified (fun c hc => ?_) fun m hm _ => hm
    obtain ⟨id, -, rfl⟩ := Option.map_eq_some_iff.mp hrows
    have hmem := mem_oldestFirst.mp hc
    simp only [List.mem_filter, Bool.and_eq_true] at hmem
    exact ⟨hmem.1, hmem.2.1.1⟩
  since limitDate := by
    refine h.classified (fun c hc => ?_) fun m hm _ => hm
    have hmem := mem_oldestFirst.mp hc
    simp only [List.mem_filter, Bool.and_eq_true] at hmem
    exact ⟨hmem.1, hmem.2.1⟩

theorem classifies_of_keepsTables (hreg : DependenciesRegistered env) {s : Site Schema}
    (h : SiteRun env cfg pl (KeepsTables env) s) :
    Classifies env cfg pl s.session.registry s.auditLog := (covered_of_run h).classifies hreg

end Classified

section Uninstalled

def siteConfig : Config := { dbUser := "iasql", version := "0.0.1" }

def sitePlanner : LogPlanner := Newest.Planner.stable IasqlAuditLog.ts

def insertOf (ts : Nat) (tableName : String) : IasqlAuditLog where
  ts
  user := "user"
  tableName
  changeType := .insert
  change := { change := some [("id", .num 1)] }

abbrev PlatformSite := Site (List String)

def siteInstalled : PlatformSite where
  session := afterCall platformEnv freshSession (.install ["aws_vpc"])

def siteLogged (s : PlatformSite) (row : IasqlAuditLog) : PlatformSite :=
  { s with auditLog := saveLog s.auditLog row }

def siteChanged : PlatformSite :=
  siteLogged (siteLogged siteInstalled (insertOf 1 "vpc")) (insertOf 2 "aws_credentials")

def siteWithoutVpc : PlatformSite :=
  { siteChanged with session := afterCall platformEnv siteChanged.session (.uninstall ["aws_vpc"]) }

theorem platformEnv_registered : DependenciesRegistered platformEnv := by
  unfold DependenciesRegistered
  decide +kernel

theorem logged_step (s : PlatformSite) {row : IasqlAuditLog} (h : TriggerRow row) :
    siteStep platformEnv siteConfig sitePlanner s (.log (.rowChange row)) (siteLogged s row) :=
  ⟨rfl, h, h.isRowChange, rfl⟩

theorem changed_run : SiteRun platformEnv siteConfig sitePlanner (KeepsTables platformEnv) siteChanged := by
  have hstart : SiteRun platformEnv siteConfig sitePlanner (KeepsTables platformEnv)
      { session := freshSession } := .start rfl
  have hinstall : KeepsTables platformEnv { session := freshSession }
      (.call (.install ["aws_vpc"])) := trivial
  have hinstalled : SiteRun platformEnv siteConfig sitePlanner (KeepsTables platformEnv) siteInstalled :=
    hstart.next hinstall rfl
  have hvpc : KeepsTables platformEnv siteInstalled (.log (.rowChange (insertOf 1 "vpc"))) :=
    ⟨awsVpc, by simp [platformEnv], by decide +kernel, by decide⟩
  have hcredentials : KeepsTables platformEnv (siteLogged siteInstalled (insertOf 1 "vpc"))
      (.log (.rowChange (insertOf 2 "aws_credentials"))) :=
    ⟨awsAccount, by simp [platformEnv], by decide +kernel, by decide⟩
  exact (hinstalled.next hvpc (logged_step _ rfl)).next hcredentials (logged_step _ rfl)

-- the log remembers a table whose module is gone
theorem uninstalled_table_throws :
    DependenciesRegistered platformEnv ∧
      SiteRun platformEnv siteConfig sitePlanner (fun _ _ => True) siteWithoutVpc ∧
      (∃ start mods, sortModules (changedModules platformEnv siteWithoutVpc.session.registry
          (getChangesToCommit siteConfig sitePlanner siteWithoutVpc.auditLog start none))
            siteWithoutVpc.session.registry.iasqlModule = some mods ∧ mods = [awsAccount] ∧
        ∀ st : Store Unit, (getChangesByEntity (getChangesToCommit siteConfig sitePlanner
          siteWithoutVpc.auditLog start none) (indexModsByTable mods) st).1 =
            .thrown (.error "TypeError")) ∧
      (∀ (lookups : Lookups Unit) (st : Store Unit), (recreateEntitiesFromChangelogs lookups
        (indexModsByTable (installedModules platformEnv siteWithoutVpc.session.registry))
          (getChangeLogs none siteWithoutVpc.auditLog) (fun _ => []) st).1 =
            .thrown (.error "TypeError")) := by
  refine ⟨platformEnv_registered, ?_, ⟨newLog siteConfig .startCommit 3 none none, _, rfl, ?_, ?_⟩, ?_⟩
  · have hanything : SiteRun platformEnv siteConfig sitePlanner (fun _ _ => True) siteChanged :=
      changed_run.mono fun _ _ _ => trivial
    have huninstall : siteStep platformEnv siteConfig sitePlanner siteChanged
        (.call (.uninstall ["aws_vpc"])) siteWithoutVpc := rfl
    exact hanything.next trivial huninstall
  · rfl
  · intro st
    rfl
  · intro lookups st
    rfl

theorem changed_classifies :
    Classifies platformEnv siteConfig sitePlanner siteChanged.session.registry siteChanged.auditLog :=
  classifies_of_keepsTables platformEnv_registered changed_run

end Uninstalled

end Iasql
