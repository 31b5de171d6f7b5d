import Mathlib.Data.List.Dedup
import Mathlib.Data.List.Perm.Basic
import Iasql.Calculus.Interleaving

namespace Iasql.MetadataRepo

open Runs Interleaving

abbrev PgName := String

structure IasqlDatabase where
  dbAlias : String
  pgUser : String
  recordCount : Int
  recordsApplied : Int
  recordsSynced : Int
  upgrading : Bool
deriving DecidableEq

abbrev Entity := PgName × IasqlDatabase

-- one user, with its rows of iasql_user_databases, and the rows of iasql_database
@[ext]
structure Store where
  user : Option (List PgName)
  databases : PgName → Option IasqlDatabase

section Repositories

def isInt4 (n : Int) : Bool := -2147483648 ≤ n && n < 2147483648

def IasqlDatabase.fits (db : IasqlDatabase) : Bool :=
  isInt4 db.recordCount && isInt4 db.recordsApplied && isInt4 db.recordsSynced

namespace Store

def joined (s : Store) : List PgName := s.user.getD []

-- iasqlDatabases is eager
def findUser (s : Store) : Option (List Entity) :=
  s.user.map fun names => names.filterMap fun p => (s.databases p).map fun db => (p, db)

def findDb (s : Store) (pgName : PgName) : Option IasqlDatabase := s.databases pgName

-- a save raises when a column is out of range
def saveDatabase (pgName : PgName) (db : IasqlDatabase) (s : Store) : Option Store :=
  if db.fits then some { s with databases := Function.update s.databases pgName (some db) }
  else none

-- the join table references both tables: a name without a row raises
def saveUser (names : List PgName) (s : Store) : Option Store :=
  if names.all fun p => (s.databases p).isSome then some { s with user := some names.dedup }
  else none

def removeDatabase (pgName : PgName) (s : Store) : Option Store :=
  if pgName ∈ s.joined then none
  else some { s with databases := Function.update s.databases pgName none }

end Store

end Repositories

section Calls

inductive Column where
  | recordCount | recordsApplied | recordsSynced
deriving DecidableEq

def Column.write (n : Int) (db : IasqlDatabase) : Column → IasqlDatabase
  | .recordCount => { db with recordCount := n }
  | .recordsApplied => { db with recordsApplied := db.recordsApplied + n }
  | .recordsSynced => { db with recordsSynced := db.recordsSynced + n }

-- what a call has read and has yet to save
inductive Phase where
  | waiting
  | storing (user : Option (List Entity))
  | joining (user : Option (List Entity))
  | leaving (user : List Entity) (dbToDel : PgName)
  | removing (dbToDel : PgName)
  | recording (db : IasqlDatabase)
  | finished

abbrev Step := Phase → Store → Phase × Store

def saveDb (pgName : PgName) (db : IasqlDatabase) : Step
  | .waiting, s =>
    let user := s.findUser
    if user.any fun dbs => dbs.any fun d => d.2.dbAlias == db.dbAlias then (.finished, s)
    else (.storing user, s)
  | .storing user, s =>
    match s.saveDatabase pgName db with
    | some s' => (.joining user, s')
    | none => (.finished, s)
  | .joining user, s =>
    (.finished, (s.saveUser ((user.getD []).map Prod.fst ++ [pgName])).getD s)
  | phase, s => (phase, s)

def delDb (dbAlias : String) : Step
  | .waiting, s =>
    match s.findUser with
    | none => (.finished, s)
    | some dbs =>
      match dbs.find? fun d => d.2.dbAlias == dbAlias with
      | none => (.finished, s)
      | some dbToDel => (.leaving dbs dbToDel.1, s)
  | .leaving dbs dbToDel, s =>
    match s.saveUser ((dbs.filter fun d => d.2.dbAlias != dbAlias).map Prod.fst) with
    | some s' => (.removing dbToDel, s')
    | none => (.finished, s)
  | .removing dbToDel, s => (.finished, (s.removeDatabase dbToDel).getD s)
  | phase, s => (phase, s)

def recordRpc (column : Column) (dbId : PgName) (n : Int) : Step
  | .waiting, s =>
    match s.findDb dbId with
    | none => (.finished, s)
    | some db => (.recording db, s)
  | .recording db, s => (.finished, (s.saveDatabase dbId (column.write n db)).getD s)
  | phase, s => (phase, s)

def updateRecordCount (dbId : PgName) (recCount : Int) : Step :=
  recordRpc .recordCount dbId recCount

def incrementRecordsSynced (dbId : PgName) (recordsSynced : Int) : Step :=
  recordRpc .recordsSynced dbId recordsSynced

def incrementRecordsApplied (dbId : PgName) (recordsApplied : Int) : Step :=
  recordRpc .recordsApplied dbId recordsApplied

inductive Call where
  | saveDb (pgName : PgName) (db : IasqlDatabase)
  | delDb (dbAlias : String)
  | updateRecordCount (dbId : PgName) (recCount : Int)
  | incrementRecordsSynced (dbId : PgName) (recordsSynced : Int)
  | incrementRecordsApplied (dbId : PgName) (recordsApplied : Int)
deriving DecidableEq

def Call.step : Call → Step
  | .saveDb pgName db => MetadataRepo.saveDb pgName db
  | .delDb dbAlias => MetadataRepo.delDb dbAlias
  | .updateRecordCount dbId n => MetadataRepo.updateRecordCount dbId n
  | .incrementRecordsSynced dbId n => MetadataRepo.incrementRecordsSynced dbId n
  | .incrementRecordsApplied dbId n => MetadataRepo.incrementRecordsApplied dbId n

-- no call reads and saves more than three times
def Call.alone (call : Call) (s : Store) : Store :=
  let (p₁, s₁) := call.step .waiting s
  let (p₂, s₂) := call.step p₁ s₁
  (call.step p₂ s₂).2

end Calls

section System

variable {ι : Type} [DecidableEq ι]

abbrev Repo (ι : Type) := System ι Phase Store

def start (s : Store) : Repo ι := { store := s, phase := fun _ => .waiting }

abbrev proceed (calls : ι → Call) : Repo ι → ι → Repo ι := turn fun i => (calls i).step

def inOrder (calls : ι → Call) (s : Store) (order : List ι) : Store :=
  serial (fun i => (calls i).alone) s order

def aliases (dbs : List Entity) : List (PgName × String) := dbs.map fun d => (d.1, d.2.dbAlias)

-- what the call wrote from is what is stored, in every column the save would put back
def Column.Unchanged (read now : IasqlDatabase) : Column → Prop
  | .recordCount => { now with recordCount := read.recordCount } = read
  | _ => now = read

def Store.Records (s : Store) (column : Column) (dbId : PgName) (read : IasqlDatabase) : Prop :=
  dbId ∈ s.joined ∧ ∃ now, s.databases dbId = some now ∧ column.Unchanged read now

-- what a save puts in the place of what is stored, the call has read
def Store.Fresh (s : Store) : Call → Phase → Prop
  | .saveDb pgName _, .storing _ => s.databases pgName = none
  | .saveDb _ _, .joining user => s.findUser.map aliases = user.map aliases
  | .delDb _, .leaving dbs _ => s.findUser.map aliases = some (aliases dbs)
  | .updateRecordCount dbId _, .recording db => s.Records .recordCount dbId db
  | .incrementRecordsSynced dbId _, .recording db => s.Records .recordsSynced dbId db
  | .incrementRecordsApplied dbId _, .recording db => s.Records .recordsApplied dbId db
  | _, _ => True

def Undisturbed (calls : ι → Call) (s₀ : Store) : Repo ι → Prop :=
  RunFrom (· = start s₀) (fun sys i t => t = proceed calls sys i)
    fun sys i => sys.store.Fresh (calls i) (sys.phase i)

def Store.DistinctAliases (s : Store) : Prop :=
  ((s.findUser.getD []).map fun d => d.2.dbAlias).Nodup

-- what the keys of the join table keep, and aliases told apart
structure Store.Sound (s : Store) : Prop where
  nodup : s.joined.Nodup
  rows : ∀ p ∈ s.joined, (s.databases p).isSome
  distinct : s.DistinctAliases

end System

section Listings

variable {s t : Store} {p : PgName} {db : IasqlDatabase} {names : List PgName}
  {dbs dbs' : List Entity} {dbAlias : String}

theorem mem_findUser {d : Entity} : d ∈ s.findUser.getD [] ↔
    d.1 ∈ s.joined ∧ s.databases d.1 = some d.2 := by
  obtain ⟨p, db⟩ := d
  unfold Store.findUser Store.joined
  cases s.user with
  | none => simp
  | some names => simp +contextual [and_comm]

theorem findUser_names (h : ∀ p ∈ s.joined, (s.databases p).isSome) :
    (s.findUser.getD []).map Prod.fst = s.joined := by
  unfold Store.findUser Store.joined at *
  cases hs : s.user with
  | none => rfl
  | some names =>
    simp only [hs, Option.getD_some, Option.map_some] at h ⊢
    clear hs
    induction names with
    | nil => rfl
    | cons p names ih =>
      obtain ⟨db, hdb⟩ := Option.isSome_iff_exists.mp (h p List.mem_cons_self)
      have htail := ih fun q hq => h q (List.mem_cons_of_mem p hq)
      simp [hdb, htail]

theorem findUser_congr (huser : t.user = s.user)
    (h : ∀ p ∈ s.joined, t.databases p = s.databases p) : t.findUser = s.findUser := by
  unfold Store.findUser
  rw [huser]
  cases hs : s.user with
  | none => rfl
  | some names =>
    rw [Option.map_some, Option.map_some]
    refine congrArg some (List.filterMap_congr fun p hp => ?_)
    rw [h p (by simpa [Store.joined, hs] using hp)]

theorem saveDatabase_of_fits (h : db.fits = true) : s.saveDatabase p db =
    some { s with databases := Function.update s.databases p (some db) } := if_pos h

theorem saveDatabase_of_not_fits (h : db.fits = false) : s.saveDatabase p db = none := by
  rw [Store.saveDatabase, h]
  exact if_neg Bool.false_ne_true

theorem saveUser_eq (hnodup : names.Nodup) (h : ∀ p ∈ names, (s.databases p).isSome) :
    s.saveUser names = some { s with user := some names } := by
  unfold Store.saveUser
  rw [if_pos (List.all_eq_true.mpr h), hnodup.dedup]

theorem removeDatabase_eq (h : p ∉ s.joined) : s.removeDatabase p =
    some { s with databases := Function.update s.databases p none } := if_neg h

end Listings

section Read

variable {dbs dbs' : List Entity} {dbAlias : String}

theorem any_alias : (dbs.any fun d => d.2.dbAlias == dbAlias) =
    (aliases dbs).any fun d => d.2 == dbAlias := by
  simp [aliases, List.any_map, Function.comp_def]

theorem names_aliases : dbs.map Prod.fst = (aliases dbs).map Prod.fst := by
  simp [aliases, Function.comp_def]

theorem find_alias : (dbs.find? fun d => d.2.dbAlias == dbAlias).map Prod.fst =
    ((aliases dbs).find? fun d => d.2 == dbAlias).map Prod.fst := by
  simp [aliases, List.find?_map, Function.comp_def]

theorem filter_alias : (dbs.filter fun d => d.2.dbAlias != dbAlias).map Prod.fst =
    ((aliases dbs).filter fun d => d.2 != dbAlias).map Prod.fst := by
  simp [aliases, List.filter_map, Function.comp_def]

-- nobody of the user's databases has the alias
def Unclaimed (dbAlias : String) (user : Option (List Entity)) : Prop :=
  (user.any fun dbs => dbs.any fun d => d.2.dbAlias == dbAlias) = false

theorem unclaimed_congr {user user' : Option (List Entity)}
    (h : user.map aliases = user'.map aliases) :
    Unclaimed dbAlias user ↔ Unclaimed dbAlias user' := by
  cases user with
  | none =>
    cases user' with
    | none => rfl
    | some dbs' => simp at h
  | some dbs =>
    cases user' with
    | none => simp at h
    | some dbs' =>
      have haliases : aliases dbs = aliases dbs' := by simpa using h
      simp only [Unclaimed, Option.any_some, any_alias, haliases]

theorem names_congr {user user' : Option (List Entity)}
    (h : user.map aliases = user'.map aliases) :
    (user.getD []).map Prod.fst = (user'.getD []).map Prod.fst := by
  cases user with
  | none =>
    cases user' with
    | none => rfl
    | some dbs' => simp at h
  | some dbs =>
    cases user' with
    | none => simp at h
    | some dbs' =>
      have haliases : aliases dbs = aliases dbs' := by simpa using h
      simp only [Option.getD_some, names_aliases, haliases]

end Read

section Soundness

variable {s t : Store} {p : PgName} {db : IasqlDatabase}

theorem distinct_iff (hnodup : s.joined.Nodup) (hrows : ∀ p ∈ s.joined, (s.databases p).isSome) :
    s.DistinctAliases ↔ ∀ p ∈ s.joined, ∀ q ∈ s.joined, ∀ a b, s.databases p = some a →
      s.databases q = some b → a.dbAlias = b.dbAlias → p = q := by
  have hdbs : (s.findUser.getD []).Nodup := by
    refine List.Nodup.of_map Prod.fst ?_
    rw [findUser_names hrows]
    exact hnodup
  unfold Store.DistinctAliases
  rw [List.nodup_map_iff_inj_on hdbs]
  constructor
  · intro h p hp q hq a b ha hb halias
    have hpair := h (p, a) (mem_findUser.mpr ⟨hp, ha⟩) (q, b) (mem_findUser.mpr ⟨hq, hb⟩) halias
    exact congrArg Prod.fst hpair
  · intro h d hd e he halias
    obtain ⟨hp, ha⟩ := mem_findUser.mp hd
    obtain ⟨hq, hb⟩ := mem_findUser.mp he
    have hname := h d.1 hp e.1 hq d.2 e.2 ha hb halias
    rw [hname] at ha
    exact Prod.ext hname (Option.some.inj (ha.symm.trans hb))

theorem Store.Sound.shrink (hs : s.Sound) (hsub : List.Sublist t.joined s.joined)
    (hrows : ∀ p ∈ t.joined, ∃ a b, s.databases p = some a ∧ t.databases p = some b ∧
      b.dbAlias = a.dbAlias) : t.Sound := by
  have hnodup := hs.nodup.sublist hsub
  have hsome : ∀ p ∈ t.joined, (t.databases p).isSome := by
    intro p hp
    obtain ⟨a, b, -, hb, -⟩ := hrows p hp
    rw [hb, Option.isSome_some]
  refine ⟨hnodup, hsome, (distinct_iff hnodup hsome).mpr fun p hp q hq b b' hb hb' halias => ?_⟩
  obtain ⟨a, c, ha, hc, hac⟩ := hrows p hp
  obtain ⟨a', c', ha', hc', hac'⟩ := hrows q hq
  obtain rfl := Option.some.inj (hb.symm.trans hc)
  obtain rfl := Option.some.inj (hb'.symm.trans hc')
  exact (distinct_iff hs.nodup hs.rows).mp hs.distinct p (hsub.subset hp) q (hsub.subset hq)
    a a' ha ha' (by rw [← hac, ← hac', halias])

theorem Store.Sound.join (hs : s.Sound) (hrow : s.databases p = some db) (hp : p ∉ s.joined)
    (hclaim : Unclaimed db.dbAlias s.findUser) :
    Store.Sound { s with user := some (s.joined ++ [p]) } := by
  have hnodup : (s.joined ++ [p]).Nodup :=
    hs.nodup.append (List.nodup_singleton p) (by simpa using hp)
  have hsome : ∀ q ∈ s.joined ++ [p], (s.databases q).isSome := by
    intro q hq
    obtain hq | hq := List.mem_append.mp hq
    · exact hs.rows q hq
    · rw [List.mem_singleton.mp hq, hrow, Option.isSome_some]
  have hother : ∀ q ∈ s.joined, ∀ a, s.databases q = some a → a.dbAlias ≠ db.dbAlias := by
    intro q hq a ha halias
    have hmem : (q, a) ∈ s.findUser.getD [] := mem_findUser.mpr ⟨hq, ha⟩
    unfold Unclaimed at hclaim
    cases hread : s.findUser with
    | none => simp [hread] at hmem
    | some dbs =>
      rw [hread, Option.any_some, List.any_eq_false] at hclaim
      exact hclaim (q, a) (by simpa [hread] using hmem) (by simpa using halias)
  have hdistinct : ∀ q ∈ s.joined ++ [p], ∀ r ∈ s.joined ++ [p], ∀ a b,
      s.databases q = some a → s.databases r = some b → a.dbAlias = b.dbAlias → q = r := by
    intro q hq r hr a b ha hb halias
    obtain hq' | hq' := List.mem_append.mp hq
    · obtain hr' | hr' := List.mem_append.mp hr
      · exact (distinct_iff hs.nodup hs.rows).mp hs.distinct q hq' r hr' a b ha hb halias
      · obtain rfl := List.mem_singleton.mp hr'
        obtain rfl := Option.some.inj (hrow.symm.trans hb)
        exact absurd halias (hother q hq' a ha)
    · obtain rfl := List.mem_singleton.mp hq'
      obtain rfl := Option.some.inj (hrow.symm.trans ha)
      obtain hr' | hr' := List.mem_append.mp hr
      · exact absurd halias.symm (hother r hr' b hb)
      · exact (List.mem_singleton.mp hr').symm
  exact ⟨hnodup, hsome, (distinct_iff (s := { s with user := some (s.joined ++ [p]) }) hnodup
    hsome).mpr hdistinct⟩

end Soundness

section Alone

variable {s : Store} {p : PgName} {db : IasqlDatabase} {dbs : List Entity} {dbAlias : String}

theorem alone_saveDb_claimed (h : ¬Unclaimed db.dbAlias s.findUser) :
    (Call.saveDb p db).alone s = s := by
  have hany : (s.findUser.any fun dbs => dbs.any fun d => d.2.dbAlias == db.dbAlias) = true :=
    (Bool.not_eq_false _).mp h
  simp [Call.alone, Call.step, saveDb, hany]

theorem alone_saveDb_unfit (h : db.fits = false) : (Call.saveDb p db).alone s = s := by
  by_cases hclaim : Unclaimed db.dbAlias s.findUser
  · unfold Unclaimed at hclaim
    simp [Call.alone, Call.step, saveDb, hclaim, saveDatabase_of_not_fits h]
  · exact alone_saveDb_claimed hclaim

theorem alone_saveDb (hs : s.Sound) (hclaim : Unclaimed db.dbAlias s.findUser)
    (hfits : db.fits = true) (hp : p ∉ s.joined) : (Call.saveDb p db).alone s =
      { user := some (s.joined ++ [p]),
        databases := Function.update s.databases p (some db) } := by
  have hnodup : (s.joined ++ [p]).Nodup :=
    hs.nodup.append (List.nodup_singleton p) (by simpa using hp)
  have hrows : ∀ q ∈ s.joined ++ [p], (Function.update s.databases p (some db) q).isSome := by
    intro q hq
    obtain rfl | hne := eq_or_ne q p
    · simp
    · rw [Function.update_of_ne hne]
      exact hs.rows q (by simpa [hne] using hq)
  have hsave := saveUser_eq
    (s := { s with databases := Function.update s.databases p (some db) }) hnodup hrows
  unfold Unclaimed at hclaim
  simp [Call.alone, Call.step, saveDb, hclaim, saveDatabase_of_fits hfits,
    findUser_names hs.rows, hsave]

theorem alone_delDb_absent (h : s.findUser = none) : (Call.delDb dbAlias).alone s = s := by
  simp [Call.alone, Call.step, delDb, h]

theorem alone_delDb_unknown (h : s.findUser = some dbs)
    (hfind : (dbs.find? fun d => d.2.dbAlias == dbAlias) = none) :
    (Call.delDb dbAlias).alone s = s := by
  simp [Call.alone, Call.step, delDb, h, hfind]

def kept (dbAlias : String) (dbs : List Entity) : List PgName :=
  (dbs.filter fun d => d.2.dbAlias != dbAlias).map Prod.fst

theorem kept_sublist : List.Sublist (kept dbAlias dbs) (dbs.map Prod.fst) :=
  List.filter_sublist.map Prod.fst

theorem found_not_kept {d : Entity} (hnodup : (dbs.map Prod.fst).Nodup)
    (hfind : (dbs.find? fun d => d.2.dbAlias == dbAlias) = some d) : d.1 ∉ kept dbAlias dbs := by
  intro hmem
  obtain ⟨e, he, heq⟩ := List.mem_map.mp hmem
  obtain ⟨hin, hne⟩ := List.mem_filter.mp he
  have hsame : e = d := List.inj_on_of_nodup_map hnodup hin (List.mem_of_find?_eq_some hfind) heq
  have halias := List.find?_some hfind
  simp_all

theorem saveUser_kept (hs : s.Sound) (hread : s.findUser = some dbs) :
    s.saveUser (kept dbAlias dbs) = some { s with user := some (kept dbAlias dbs) } := by
  have hnames : dbs.map Prod.fst = s.joined := by
    rw [← findUser_names hs.rows, hread, Option.getD_some]
  have hsub : List.Sublist (kept dbAlias dbs) s.joined := hnames ▸ kept_sublist
  exact saveUser_eq (hs.nodup.sublist hsub) fun p hp => hs.rows p (hsub.subset hp)

theorem alone_delDb {d : Entity} (hs : s.Sound) (hread : s.findUser = some dbs)
    (hfind : (dbs.find? fun d => d.2.dbAlias == dbAlias) = some d) :
    (Call.delDb dbAlias).alone s =
      { user := some (kept dbAlias dbs),
        databases := Function.update s.databases d.1 none } := by
  have hnodup : (dbs.map Prod.fst).Nodup := by
    have hnames := findUser_names hs.rows
    rw [hread, Option.getD_some] at hnames
    exact hnames ▸ hs.nodup
  have hremove := removeDatabase_eq (s := { s with user := some (kept dbAlias dbs) })
    (found_not_kept hnodup hfind)
  have hsave : s.saveUser ((dbs.filter fun d => d.2.dbAlias != dbAlias).map Prod.fst) =
      some { s with user := some (kept dbAlias dbs) } := saveUser_kept hs hread
  simp [Call.alone, Call.step, delDb, hread, hfind, hsave, hremove]

end Alone

section Recording

variable {s : Store} {call : Call} {column : Column} {dbId : PgName} {n : Int}
  {db : IasqlDatabase}

theorem alone_record_absent (hcall : call.step = recordRpc column dbId n)
    (h : s.databases dbId = none) : call.alone s = s := by
  simp [Call.alone, hcall, recordRpc, Store.findDb, h]

theorem alone_record (hcall : call.step = recordRpc column dbId n)
    (h : s.databases dbId = some db) :
    call.alone s = (s.saveDatabase dbId (column.write n db)).getD s := by
  simp [Call.alone, hcall, recordRpc, Store.findDb, h]

theorem write_unchanged {read now : IasqlDatabase} (h : column.Unchanged read now) :
    column.write n read = column.write n now := by
  cases column with
  | recordCount =>
    rw [← h]
    rfl
  | recordsApplied =>
    have heq : now = read := h
    rw [heq]
  | recordsSynced =>
    have heq : now = read := h
    rw [heq]

theorem write_alias : (column.write n db).dbAlias = db.dbAlias := by
  cases column <;> rfl

end Recording

end Iasql.MetadataRepo
