import Iasql.Engine

namespace Iasql

open Program OrderedMap

section Modules

variable {W E : Type}

-- the last module that provides a table is the one kept for it
def indexModsByTable (mods : List (Module W E)) (table : String) : Option (Module W E) :=
  (mods.filter fun mod => mod.tables.contains table).getLast?

def dedup (xs : List String) : List String :=
  xs.foldl (fun acc x => if x ∈ acc then acc else acc ++ [x]) []

-- a dependency that no imported module answers to leaves undefined in the list
def getModulesWithChanges (importedModules installedModules : List (Module W E))
    (installedModulesNames tablesWithChanges : List String) (versionString : String) :
    List (Option (Module W E)) :=
  let modulesDirectlyAffected := installedModules.filter fun mod =>
    mod.tables.any fun t => tablesWithChanges.contains t
  let depsNames := dedup ((modulesDirectlyAffected.flatMap fun m =>
    m.dependencies.filter fun d => !installedModulesNames.contains d).filter fun d =>
      !([s!"iasql_platform@{versionString}", s!"iasql_functions@{versionString}"].contains d))
  modulesDirectlyAffected.map some ++
    depsNames.map fun n => importedModules.find? fun m => m.fullName == n

-- none: a cycle of dependencies keeps the list rotating for ever
def sortLoop : Nat → List (Option (Module W E)) → List String → Option (List (Module W E))
  | _, [], _ => some []
  | _, none :: _, _ => some []
  | 0, _ :: _, _ => none
  | fuel + 1, some m :: rest, names =>
    if m.dependencies.all names.contains then
      (sortLoop fuel rest (m.fullName :: names)).map (m :: ·)
    else sortLoop fuel (rest ++ [some m]) names

def sortModules (modules : List (Option (Module W E))) (existingModules : List String) :
    Option (List (Module W E)) :=
  sortLoop ((modules.length + 1) * (modules.length + 1)) modules existingModules

theorem mem_of_sortLoop {fuel : Nat} {mods : List (Option (Module W E))} {names : List String}
    {out : List (Module W E)} (h : sortLoop fuel mods names = some out) :
    ∀ m ∈ out, some m ∈ mods := by
  induction fuel generalizing mods names out with
  | zero =>
    match mods, h with
    | [], h => cases h; simp
    | none :: _, h => cases h; simp
    | some _ :: _, h => cases h
  | succ fuel ih =>
    match mods, h with
    | [], h => cases h; simp
    | none :: _, h => cases h; simp
    | some m :: rest, h =>
      rw [sortLoop] at h
      split at h
      · obtain ⟨out', hout, rfl⟩ := Option.map_eq_some_iff.mp h
        intro x hx
        rcases List.mem_cons.mp hx with rfl | hx
        · simp
        · exact List.mem_cons_of_mem _ (ih hout x hx)
      · intro x hx
        have hmem := ih h x hx
        simpa [or_comm] using hmem

end Modules

section ChangesByEntity

variable {W E : Type}

def pushEntities (changes : ChangeSet E) (entityName : String) (es : List E) : ChangeSet E :=
  Function.update changes entityName (changes entityName ++ es)

def entityMappers (mod : Module W E) : List (Mapper W E) :=
  (ofList (mod.mappers.map fun m => (m.entityName, m))).map Prod.snd

def changesOfRecord (c : IasqlAuditLog) : List (Mapper W E) → ChangeSet E →
    Prog (Store W) Thrown (ChangeSet E)
  | [], changesByEntity => pure changesByEntity
  | m :: ms, changesByEntity => do
    let changedEntities ← m.changedEntities c
    changesOfRecord c ms (pushEntities changesByEntity m.entityName changedEntities)

def changesOfRecords (modsIndexedByTable : String → Option (Module W E)) :
    List IasqlAuditLog → ChangeSet E → Prog (Store W) Thrown (ChangeSet E)
  | [], changesByEntity => pure changesByEntity
  | c :: cs, changesByEntity =>
    match modsIndexedByTable c.tableName with
    | none => Prog.fail (.error "TypeError")
    | some mod => do
      let changesByEntity ← changesOfRecord c (entityMappers mod) changesByEntity
      changesOfRecords modsIndexedByTable cs changesByEntity

def getChangesByEntity (changesToCommit : List IasqlAuditLog)
    (modsIndexedByTable : String → Option (Module W E)) : Prog (Store W) Thrown (ChangeSet E) :=
  changesOfRecords modsIndexedByTable changesToCommit fun _ => []

end ChangesByEntity

section Setup

variable {W E : Type} (env : Env W E) (force : Bool)

def throwIfUpgrading : Prog (Engine W E) Thrown Unit := do
  let upgrading ← onStore env.upgrading
  if !force && upgrading then
    Prog.fail (.error "The database is upgrading. Please try again later.")
  else return ()

def getImportedModules (versionString : String) : Prog (Engine W E) Thrown (List (Module W E)) :=
  if versionString ≠ env.cfg.version then
    Prog.fail (.error s!"Unsupported version {versionString}. Please upgrade or replace this database.")
  else do
    let upgrading ← onStore env.upgrading
    if !force && upgrading then Prog.fail (.error "Cannot apply a change while upgrading")
    else return env.allModules

def findInstalledModules : Prog (Engine W E) Thrown (List String) := do
  onStore env.roundTrip
  Prog.reads fun s => env.installedModules s.ctx.store

def present : List (Option (Module W E)) → Prog (Engine W E) Thrown (List (Module W E))
  | [] => pure []
  | none :: _ => Prog.fail (.error "TypeError")
  | some m :: ms => do return m :: (← present ms)

def startedAt (ctx : Context W E) : Option Nat :=
  (ctx.startCommit.map (·.ts)).or (ctx.previewStartCommit.map (·.ts))

def tablesOf (changes : List IasqlAuditLog) : List String := dedup (changes.map (·.tableName))

def getChangesAfterCommitStartedByEntity : Prog (Engine W E) Thrown (ChangeSet E) := do
  let started ← Prog.reads fun s => startedAt s.ctx
  let changesAfterCommit ← readLog env fun log => getChangesAfterCommit env.cfg env.planner log started
  let versionString ← onStore env.versionString
  let importedModules ← getImportedModules env force versionString
  let installedModulesNames ← findInstalledModules env
  let installedModules := importedModules.filter fun mod =>
    installedModulesNames.contains mod.fullName
  let modulesWithChanges ← present (getModulesWithChanges importedModules installedModules
    installedModulesNames (tablesOf changesAfterCommit) versionString)
  onStore (getChangesByEntity changesAfterCommit (indexModsByTable modulesWithChanges))

end Setup

end Iasql
