import Iasql.Calculus.Runs
import Iasql.History
import Iasql.RdsUpdate

namespace Iasql.SecretValues

open Program Runs Rds

section Secrets

structure Secret where
  id : Option Nat := none
  name : String
  description : Option String := none
  value : Option String := none
  versionId : Option String := none
  region : String
deriving DecidableEq

structure SecretListEntry where
  name : Option String
  description : Option String := none
  secretVersionsToStages : List (String × List String) := []

def secretsMapper (secret : SecretListEntry) (region : String) : Option Secret :=
  (nonEmpty secret.name).map fun name =>
    { name, description := nonEmpty secret.description
      versionId := (secret.secretVersionsToStages.find? fun stage => stage.2.head? = some "AWSCURRENT").map (·.1)
      region }

structure CreateSecretCommandOutput where
  name : String
  versionId : Option String := none

-- what getSecret answers each time that it is asked
abbrev Answers := Nat → Except String (Option SecretListEntry)

-- the loop that waits for the new secret, at most so many times more
def waitCreated (answers : Answers) : Nat → Nat → Except String Unit
  | 0, _ => .ok ()
  | n + 1, i =>
    match answers i with
    | .error err => .error err
    | .ok (some _) => .ok ()
    | .ok none => waitCreated answers n (i + 1)

-- the turn of cloud.create for one secret, up to the record that it saves; one without a value is left out
def createSecret (created : Except String (Option CreateSecretCommandOutput)) (answers : Answers) (secret : Secret) :
    Except String (Option Secret) :=
  if Aws.truthy secret.value then do
    match ← created with
    | none => .error "Secret not properly created in AWS"
    | some secretAWS =>
      waitCreated answers 30 0
      return some { secret with
        name := secretAWS.name
        versionId := (nonEmpty secretAWS.versionId).or secret.versionId
        value := none }
  else return none

-- the loop that waits for another version where a value was sent: the last secret it read, and the version to save
def waitUpdated (answers : Answers) (cloudRecord secret : Secret) :
    Nat → Nat → Option Secret → Except String (Option Secret × Option String)
  | 0, _, finalSecret => .ok (finalSecret, secret.versionId)
  | n + 1, i, _ =>
    match answers i with
    | .error err => .error err
    | .ok none => .error "Cannot read properties of undefined (reading 'Name')"
    | .ok (some rawSecret) =>
      match secretsMapper rawSecret secret.region with
      | none => waitUpdated answers cloudRecord secret n (i + 1) none
      | some finalSecret =>
        if Aws.truthy secret.value && finalSecret.versionId != cloudRecord.versionId then
          .ok (some finalSecret, finalSecret.versionId)
        else if !Aws.truthy secret.value && Aws.truthy finalSecret.versionId then
          .ok (some finalSecret, cloudRecord.versionId)
        else waitUpdated answers cloudRecord secret n (i + 1) (some finalSecret)

def updateSecret (updated : Except String Bool) (answers : Answers) (cloudRecord secret : Secret) :
    Except String (Option Secret) := do
  if !(← updated) then .error "Secret not properly updated in AWS"
  else
    match ← waitUpdated answers cloudRecord secret 30 0 none with
    | (none, _) => .error "Secret not properly returned"
    | (some finalSecret, versionId) =>
      if Aws.truthy secret.value && finalSecret.versionId == cloudRecord.versionId then
        .error "Secret has not been modified"
      else return some { secret with
        versionId := versionId
        value := none }

end Secrets

section Passwords

-- the instance as AWS describes it behind the requests
def createRDS (l : InstanceReads) (created : Except String AwsDBInstance) (e : RDS) : Except String (Option RDS) := do
  if e.vpcSecurityGroups.any fun sg => !Aws.truthy sg.groupId then .error "Security group needs to exist"
  else
    let newObject ← created
    return (rdsMapper l newObject e.region).map fun newEntity => { newEntity with
      id := e.id
      masterUserPassword := none }

def createDBCluster (l : ClusterReads) (created : Except String (Option AwsDBCluster)) (e : DBCluster) :
    Except String (Option DBCluster) := do
  if e.vpcSecurityGroups.any fun sg => !Aws.truthy sg.groupId then .error "Security group needs to exist"
  else if !Aws.truthy e.masterUserPassword then .error "Master user password is required"
  else
    let newObject ← created
    return (newObject.bind fun newObject => dbClusterMapper l newObject e.region).map fun newEntity => { newEntity with
      id := e.id
      masterUserPassword := none }

def savedRDS (l : InstanceReads) (cloudRecord : RDS) (aws : AwsDBInstance) (e : RDS) : Option RDS :=
  match Rds.updateRDS l cloudRecord e ⟨aws, e⟩ with
  | (.returned (), s) => some s.row
  | _ => none

-- the record of the cloud has no such property of its own, and saving it leaves the column alone
def savedDBCluster (l : ClusterReads) (cloudRecord : DBCluster) (aws : AwsDBCluster) (e : DBCluster) : Option DBCluster :=
  match Rds.updateDBCluster l cloudRecord e ⟨aws, e⟩ with
  | (.returned (), s) =>
    if isRestored e cloudRecord then some { s.row with masterUserPassword := e.masterUserPassword } else some s.row
  | _ => none

end Passwords

section Database

-- the column of a table that holds a secret
def secretColumn (t : String) : Option String :=
  if t = "secret" then some "value"
  else if t = "rds" then some "master_user_password"
  else if t = "db_cluster" then some "master_user_password"
  else none

def Carries (t : String) (r : Row) (v : String) : Prop := ∃ c, secretColumn t = some c ∧ r c = .str v

def LogCarries (l : IasqlAuditLog) (v : String) : Prop :=
  ∃ c, secretColumn l.tableName = some c ∧
    ∃ cols, (l.change.original = some cols ∨ l.change.change = some cols) ∧ (c, .str v) ∈ cols

def secretsOf (t : String) (r : Row) : List String :=
  match secretColumn t with
  | none => []
  | some c =>
    match r c with
    | .str v => [v]
    | _ => []

-- how TypeORM loads and stores the entity of a table with a secret
structure Persisted (pg : Postgres) (E : Type) (table column : String) (secret : E → Option String) where
  load : Row → E
  values : E → Columns
  loads : ∀ r v, secret (load r) = some v → r column = .str v
  stores : ∀ e, rowOf pg table (values e) column = (secret e).elim .null .str

structure Installed (pg : Postgres) where
  columns : ∀ t c, secretColumn t = some c → (pg.column t c).isSome = true
  secret : Persisted pg Secret "secret" "value" (·.value)
  rds : Persisted pg RDS "rds" "master_user_password" (·.masterUserPassword)
  dbCluster : Persisted pg DBCluster "db_cluster" "master_user_password" (·.masterUserPassword)

structure State where
  db : Db
  log : List IasqlAuditLog := []
  -- the secrets that the statements of users have set
  given : List String := []

inductive Action where
  | statement (ts : Nat) (user : String) (changes : List RowChange)
  | marker (cfg : Config) (changeType : AuditLogChangeType) (ts : Nat)
  | createSecret (ts i : Nat) (created : Except String (Option CreateSecretCommandOutput)) (answers : Answers)
  | updateSecret (ts i : Nat) (updated : Except String Bool) (answers : Answers) (cloudRecord : Secret)
  | createRDS (ts i : Nat) (l : InstanceReads) (created : Except String AwsDBInstance)
  | updateRDS (ts i : Nat) (l : InstanceReads) (seen aws : AwsDBInstance)
  | createDBCluster (ts i : Nat) (l : ClusterReads) (created : Except String (Option AwsDBCluster))
  | updateDBCluster (ts i : Nat) (l : ClusterReads) (seen aws : AwsDBCluster)
  | sync (ts : Nat) (change : RowChange)

variable (pg : Postgres) (iasql : Installed pg)

def newRow : RowChange → Option Row
  | .insert t values => some (rowOf pg t values)
  | .delete _ _ => none
  | .update t _ values => some (rowOf pg t values)

def setBy (change : RowChange) : List String := (newRow pg change).elim [] (secretsOf change.table)

-- the row and the audit log behind the trigger
def write (s : State) (ts : Nat) (user : String) (change : RowChange) : Option State :=
  (applyChange pg ts user s.db change).map fun (db, l) =>
    { s with
      db := db
      log := saveLog s.log l }

def userWrite (ts : Nat) (user : String) (s : State) (change : RowChange) : Option State :=
  (write pg s ts user change).map fun t => { t with given := s.given ++ setBy pg change }

-- the record that a turn of a mapper gives to db.update; where nothing differs no UPDATE is issued
def persist {E : Type} [DecidableEq E] {table column : String} {secret : E → Option String}
    (p : Persisted pg E table column secret) (s : State) (ts i : Nat) (turn : E → Except String (Option E)) :
    Option State := do
  let r ← (s.db table)[i]?
  match turn (p.load r) with
  | .error _ => none
  | .ok none => none
  | .ok (some e) => if e = p.load r then none else write pg s ts "iasql" (.update table i (p.values e))

-- what sync writes was read of the cloud: the secret is null, or the column is left alone
def readFromCloud (s : State) (change : RowChange) : Bool :=
  match change with
  | .insert _ _ => setBy pg change = []
  | .delete _ _ => true
  | .update t i _ => setBy pg change = [] || setBy pg change = ((s.db t)[i]?.elim [] (secretsOf t))

def step (s : State) : Action → Option State
  | .statement ts user changes => changes.foldlM (userWrite pg ts user) s
  | .marker cfg changeType ts => some { s with log := saveLog s.log (newLog cfg changeType ts none none) }
  | .createSecret ts i created answers =>
    persist pg iasql.secret s ts i (SecretValues.createSecret created answers)
  | .updateSecret ts i updated answers cloudRecord =>
    persist pg iasql.secret s ts i (SecretValues.updateSecret updated answers cloudRecord)
  | .createRDS ts i l created => persist pg iasql.rds s ts i (SecretValues.createRDS l created)
  | .updateRDS ts i l seen aws =>
    persist pg iasql.rds s ts i fun e =>
      .ok ((rdsMapper l seen e.region).bind fun cloudRecord => savedRDS l cloudRecord aws e)
  | .createDBCluster ts i l created => persist pg iasql.dbCluster s ts i (SecretValues.createDBCluster l created)
  | .updateDBCluster ts i l seen aws =>
    persist pg iasql.dbCluster s ts i fun e =>
      .ok ((dbClusterMapper l seen e.region).bind fun cloudRecord => savedDBCluster l cloudRecord aws e)
  | .sync ts change => if readFromCloud pg s change then write pg s ts "iasql" change else none

def Reached : State → Prop :=
  RunFrom (· = { db := fun _ => [] }) (fun s a t => step pg iasql s a = some t) fun _ _ => True

def Copied (s : State) (v : String) : Prop :=
  (∃ t, ∃ r ∈ s.db t, Carries t r v) ∨ ∃ l ∈ s.log, LogCarries l v

def Forgotten (s : State) : Prop := ∀ v ∈ s.given, ¬ Copied s v

end Database

section Turns

theorem createSecret_saved {created : Except String (Option CreateSecretCommandOutput)} {answers : Answers}
    {secret e : Secret} (h : createSecret created answers secret = .ok (some e)) : e.value = none := by
  unfold createSecret at h
  split at h
  · cases created with
    | error err => cases h
    | ok created =>
      cases created with
      | none => cases h
      | some secretAWS =>
        cases hwait : waitCreated answers 30 0 with
        | error err => simp [hwait, bind, Except.bind] at h
        | ok u =>
          simp only [hwait, bind, Except.bind, pure, Except.pure, Except.ok.injEq, Option.some.injEq] at h
          rw [← h]
  · cases h

theorem updateSecret_saved {updated : Except String Bool} {answers : Answers} {cloudRecord secret e : Secret}
    (h : updateSecret updated answers cloudRecord secret = .ok (some e)) : e.value = none := by
  cases updated with
  | error err => cases h
  | ok b =>
    cases b with
    | false => cases h
    | true =>
      cases hwait : waitUpdated answers cloudRecord secret 30 0 none with
      | error err => simp [updateSecret, hwait, bind, Except.bind] at h
      | ok w =>
        obtain ⟨finalSecret, versionId⟩ := w
        cases finalSecret with
        | none => simp [updateSecret, hwait, bind, Except.bind] at h
        | some finalSecret =>
          simp only [updateSecret, hwait, bind, Except.bind, Bool.not_true, Bool.false_eq_true, if_false] at h
          split at h
          · cases h
          · cases h
            rfl

theorem createRDS_saved {l : InstanceReads} {created : Except String AwsDBInstance} {r e : RDS}
    (h : createRDS l created r = .ok (some e)) : e.masterUserPassword = none := by
  unfold createRDS at h
  split at h
  · cases h
  · cases created with
    | error err => cases h
    | ok newObject =>
      obtain ⟨newEntity, -, rfl⟩ := Option.map_eq_some_iff.mp (Except.ok.inj h)
      rfl

theorem createDBCluster_saved {l : ClusterReads} {created : Except String (Option AwsDBCluster)} {r e : DBCluster}
    (h : createDBCluster l created r = .ok (some e)) : e.masterUserPassword = none := by
  unfold createDBCluster at h
  split at h
  · cases h
  · split at h
    · cases h
    · cases created with
      | error err => cases h
      | ok newObject =>
        obtain ⟨newEntity, -, rfl⟩ := Option.map_eq_some_iff.mp (Except.ok.inj h)
        rfl

theorem sent_row {A E : Type} {b : Bool} {apply : A → A} {s t : Edits.State A E}
    (h : Prog.runIf b (Edits.send apply) s = (.returned (), t)) : t.row = s.row := by
  cases b with
  | false =>
    cases h
    rfl
  | true =>
    cases h
    rfl

theorem savedRDS_blank {l : InstanceReads} {c : RDS} {aws : AwsDBInstance} {r e : RDS}
    (h : savedRDS l c aws r = some e) : e.masterUserPassword = none := by
  unfold savedRDS at h
  split at h
  · next s hrun =>
    cases h
    unfold Rds.updateRDS at hrun
    split at hrun
    · rw [Edits.save_returned hrun]
      rfl
    · obtain ⟨_, u, -, hrun⟩ := Prog.bind_returned_inv hrun
      obtain ⟨_, v, -, hrun⟩ := Prog.bind_returned_inv hrun
      split at hrun
      · rw [Prog.reads_bind_apply] at hrun
        cases hmapped : rdsMapper l v.aws r.region with
        | none =>
          rw [hmapped] at hrun
          cases hrun
        | some updatedRecord =>
          rw [hmapped] at hrun
          rw [Edits.save_returned hrun]
          rfl
      · rw [Edits.save_returned hrun]
        rfl
  · cases h

-- the restored record keeps what the row has, and an unsupported one is not saved
theorem savedDBCluster_blank_or_kept {l : ClusterReads} {c : DBCluster} {aws : AwsDBCluster} {r e : DBCluster}
    (h : savedDBCluster l c aws r = some e) :
    e.masterUserPassword = none ∨ e.masterUserPassword = r.masterUserPassword := by
  unfold savedDBCluster at h
  split at h
  · next s hrun =>
    split at h
    · cases h
      exact .inr rfl
    · next hrestored =>
      cases h
      unfold Rds.updateDBCluster at hrun
      split at hrun
      · cases hrun
      · obtain ⟨_, u, htags, hrun⟩ := Prog.bind_returned_inv hrun
        obtain ⟨_, v, hmodify, hrun⟩ := Prog.bind_returned_inv hrun
        rw [Prog.reads_bind_apply] at hrun
        cases hmapped : dbClusterMapper l v.aws r.region with
        | none =>
          rw [hmapped] at hrun
          cases hrun
          rw [sent_row hmodify, sent_row htags]
          exact .inr rfl
        | some newEntity =>
          rw [hmapped] at hrun
          rw [Edits.save_returned hrun]
          exact .inl rfl
  · cases h

end Turns

section Traces

variable {pg : Postgres} {iasql : Installed pg} {s t : State} {v : String} {ts : Nat} {user : String}
  {change : RowChange}

theorem mem_secretsOf {t : String} {r : Row} : v ∈ secretsOf t r ↔ Carries t r v := by
  unfold secretsOf Carries
  cases secretColumn t with
  | none => simp
  | some c => cases hc : r c <;> simp [hc, eq_comm]

theorem applyChange_spec {db db' : Db} {l : IasqlAuditLog} (h : applyChange pg ts user db change = some (db', l)) :
    l.tableName = change.table ∧
      (∀ t, ∀ r ∈ db' t, r ∈ db t ∨ t = change.table ∧ newRow pg change = some r) ∧
      (∀ cols, l.change.original = some cols → ∃ r ∈ db change.table, cols = rowJson pg change.table r) ∧
      l.change.change = (newRow pg change).map (rowJson pg change.table) := by
  cases change with
  | insert t values =>
    cases h
    refine ⟨rfl, fun t' r hr => ?_, nofun, rfl⟩
    by_cases ht : t' = t
    · subst ht
      rw [Function.update_self] at hr
      exact (List.mem_append.mp hr).imp id fun hr => ⟨rfl, congrArg some (List.mem_singleton.mp hr).symm⟩
    · rw [Function.update_of_ne ht] at hr
      exact .inl hr
  | delete t i =>
    obtain ⟨old, hold, h⟩ := Option.map_eq_some_iff.mp h
    cases h
    refine ⟨rfl, fun t' r hr => .inl ?_, ?_, rfl⟩
    · by_cases ht : t' = t
      · subst ht
        rw [Function.update_self] at hr
        exact List.mem_of_mem_eraseIdx hr
      · rwa [Function.update_of_ne ht] at hr
    · rintro _ ⟨⟩
      exact ⟨old, List.mem_of_getElem? hold, rfl⟩
  | update t i values =>
    obtain ⟨old, hold, h⟩ := Option.map_eq_some_iff.mp h
    cases h
    refine ⟨rfl, fun t' r hr => ?_, ?_, rfl⟩
    · by_cases ht : t' = t
      · subst ht
        rw [Function.update_self] at hr
        exact (List.mem_or_eq_of_mem_set hr).imp id fun hr => ⟨rfl, congrArg some hr.symm⟩
      · rw [Function.update_of_ne ht] at hr
        exact .inl hr
    · rintro _ ⟨⟩
      exact ⟨old, List.mem_of_getElem? hold, rfl⟩

theorem mem_setBy : v ∈ setBy pg change ↔ ∃ r, newRow pg change = some r ∧ Carries change.table r v := by
  unfold setBy
  cases newRow pg change with
  | none => simp
  | some r => simp [mem_secretsOf]

theorem mem_saveLog {log : List IasqlAuditLog} {l row : IasqlAuditLog} :
    l ∈ saveLog log row ↔ l ∈ log ∨ l = { row with id := nextId log } := by
  rw [saveLog, List.mem_append, List.mem_singleton]

-- every secret that was set is in the log, and every copy of one is of one that was set
structure Traced (s : State) : Prop where
  kept : ∀ v ∈ s.given, ∃ l ∈ s.log, LogCarries l v
  rows : ∀ t, ∀ r ∈ s.db t, ∀ v, Carries t r v → v ∈ s.given
  log : ∀ l ∈ s.log, ∀ v, LogCarries l v → v ∈ s.given

theorem traced_write (iasql : Installed pg) {given : List String} (h : write pg s ts user change = some t) (htraced : Traced s)
    (hgiven : ∀ v, v ∈ given ↔ v ∈ s.given ∨ v ∈ setBy pg change) : Traced { t with given := given } := by
  obtain ⟨⟨db, l⟩, happly, rfl⟩ := Option.map_eq_some_iff.mp h
  obtain ⟨htable, hrows, horiginal, hchange⟩ := applyChange_spec happly
  refine ⟨fun v hv => ?_, fun t' r hr v hcarries => ?_, fun l' hl' v hcarries => ?_⟩
  · rcases (hgiven v).mp hv with hv | hv
    · obtain ⟨l', hl', hcarries⟩ := htraced.kept v hv
      exact ⟨l', mem_saveLog.mpr (.inl hl'), hcarries⟩
    · obtain ⟨r, hr, c, hc, hvalue⟩ := mem_setBy.mp hv
      refine ⟨_, mem_saveLog.mpr (.inr rfl), c, htable ▸ hc, rowJson pg change.table r, .inr ?_, ?_⟩
      · exact hchange.trans (congrArg (Option.map _) hr)
      · exact mem_rowJson.mpr ⟨iasql.columns _ _ hc, hvalue⟩
  · rcases hrows t' r hr with hold | ⟨rfl, hnew⟩
    · exact (hgiven v).mpr (.inl (htraced.rows t' r hold v hcarries))
    · exact (hgiven v).mpr (.inr (mem_setBy.mpr ⟨r, hnew, hcarries⟩))
  · rcases mem_saveLog.mp hl' with hl' | rfl
    · exact (hgiven v).mpr (.inl (htraced.log l' hl' v hcarries))
    · obtain ⟨c, hc, cols, hcols, hmem⟩ := hcarries
      change secretColumn l.tableName = some c at hc
      rw [htable] at hc
      rcases hcols with hcols | hcols
      · obtain ⟨r, hr, rfl⟩ := horiginal cols hcols
        exact (hgiven v).mpr (.inl (htraced.rows _ r hr v ⟨c, hc, (mem_rowJson.mp hmem).2⟩))
      · obtain ⟨r, hr, rfl⟩ := Option.map_eq_some_iff.mp (hchange.symm.trans hcols)
        exact (hgiven v).mpr (.inr (mem_setBy.mpr ⟨r, hr, c, hc, (mem_rowJson.mp hmem).2⟩))

theorem write_given (h : write pg s ts user change = some t) : t.given = s.given := by
  obtain ⟨_, -, rfl⟩ := Option.map_eq_some_iff.mp h
  rfl

theorem traced_engine (iasql : Installed pg) (h : write pg s ts user change = some t) (htraced : Traced s)
    (hset : ∀ v ∈ setBy pg change, v ∈ s.given) : Traced t := by
  have hwritten : Traced { t with given := s.given } :=
    traced_write iasql h htraced fun v => ⟨.inl, fun hv => hv.elim id (hset v)⟩
  rwa [← write_given h] at hwritten

-- what a turn saves is blank, or keeps the secret that the row has
theorem traced_persist {E : Type} [DecidableEq E] {table column : String} {secret : E → Option String}
    {p : Persisted pg E table column secret} {i : Nat} {turn : E → Except String (Option E)}
    (hcolumn : secretColumn table = some column)
    (hturn : ∀ r e, turn r = .ok (some e) → secret e = none ∨ secret e = secret r)
    (h : persist pg p s ts i turn = some t) (htraced : Traced s) (iasql : Installed pg) : Traced t := by
  obtain ⟨r, hr, h⟩ := Option.bind_eq_some_iff.mp h
  split at h
  · cases h
  · cases h
  · next e hsaved =>
    split at h
    · cases h
    · refine traced_engine iasql h htraced fun v hv => ?_
      obtain ⟨_, hrow, c, hc, hvalue⟩ := mem_setBy.mp hv
      cases hrow
      obtain rfl : column = c := Option.some.inj (hcolumn.symm.trans hc)
      rw [p.stores] at hvalue
      rcases hturn _ _ hsaved with hblank | hkept
      · rw [hblank] at hvalue
        cases hvalue
      · cases hold : secret (p.load r) with
        | none =>
          rw [hkept, hold] at hvalue
          cases hvalue
        | some w =>
          rw [hkept, hold] at hvalue
          cases hvalue
          exact htraced.rows table r (List.mem_of_getElem? hr) v ⟨column, hcolumn, p.loads r v hold⟩

theorem traced_userWrite (iasql : Installed pg) (h : userWrite pg ts user s change = some t)
    (htraced : Traced s) : Traced t := by
  obtain ⟨u, hwrite, rfl⟩ := Option.map_eq_some_iff.mp h
  exact traced_write iasql hwrite htraced fun v => List.mem_append

theorem traced_statement (iasql : Installed pg) {changes : List RowChange}
    (h : changes.foldlM (userWrite pg ts user) s = some t) (htraced : Traced s) : Traced t := by
  induction changes generalizing s with
  | nil =>
    cases h
    exact htraced
  | cons change changes ih =>
    rw [List.foldlM_cons] at h
    obtain ⟨u, hfirst, hrest⟩ := Option.bind_eq_some_iff.mp h
    exact ih hrest (traced_userWrite iasql hfirst htraced)

theorem traced_marker {cfg : Config} {changeType : AuditLogChangeType} (htraced : Traced s) :
    Traced { s with log := saveLog s.log (newLog cfg changeType ts none none) } := by
  refine ⟨fun v hv => ?_, htraced.rows, fun l hl v hcarries => ?_⟩
  · obtain ⟨l, hl, hcarries⟩ := htraced.kept v hv
    exact ⟨l, mem_saveLog.mpr (.inl hl), hcarries⟩
  · rcases mem_saveLog.mp hl with hl | rfl
    · exact htraced.log l hl v hcarries
    · obtain ⟨c, hc, -⟩ := hcarries
      cases hc

theorem traced_sync (iasql : Installed pg) (hread : readFromCloud pg s change = true)
    (h : write pg s ts user change = some t) (htraced : Traced s) : Traced t := by
  refine traced_engine iasql h htraced fun v hv => ?_
  cases change with
  | insert t' values =>
    rw [of_decide_eq_true hread] at hv
    cases hv
  | delete t' i => cases hv
  | update t' i values =>
    rcases Bool.or_eq_true_iff.mp hread with hempty | hkept
    · rw [of_decide_eq_true hempty] at hv
      cases hv
    · rw [of_decide_eq_true hkept] at hv
      cases hold : (s.db t')[i]? with
      | none =>
        rw [hold] at hv
        cases hv
      | some r =>
        rw [hold] at hv
        exact htraced.rows t' r (List.mem_of_getElem? hold) v (mem_secretsOf.mp hv)

theorem traced_step {a : Action} (h : step pg iasql s a = some t) (htraced : Traced s) : Traced t := by
  cases a with
  | statement ts user changes => exact traced_statement iasql h htraced
  | marker cfg changeType ts =>
    cases h
    exact traced_marker htraced
  | createSecret ts i created answers =>
    rw [step] at h
    exact traced_persist (p := iasql.secret) rfl (fun _ _ h => .inl (createSecret_saved h)) h htraced iasql
  | updateSecret ts i updated answers cloudRecord =>
    rw [step] at h
    exact traced_persist (p := iasql.secret) rfl (fun _ _ h => .inl (updateSecret_saved h)) h htraced iasql
  | createRDS ts i l created =>
    rw [step] at h
    exact traced_persist (p := iasql.rds) rfl (fun _ _ h => .inl (createRDS_saved h)) h htraced iasql
  | updateRDS ts i l seen aws =>
    rw [step] at h
    refine traced_persist (p := iasql.rds) rfl (fun r e h => .inl ?_) h htraced iasql
    obtain ⟨_, -, hsaved⟩ := Option.bind_eq_some_iff.mp (Except.ok.inj h)
    exact savedRDS_blank hsaved
  | createDBCluster ts i l created =>
    rw [step] at h
    exact traced_persist (p := iasql.dbCluster) rfl (fun _ _ h => .inl (createDBCluster_saved h)) h htraced iasql
  | updateDBCluster ts i l seen aws =>
    rw [step] at h
    refine traced_persist (p := iasql.dbCluster) rfl (fun r e h => ?_) h htraced iasql
    obtain ⟨_, -, hsaved⟩ := Option.bind_eq_some_iff.mp (Except.ok.inj h)
    exact savedDBCluster_blank_or_kept hsaved
  | sync ts change =>
    rw [step] at h
    split at h
    · next hread => exact traced_sync iasql hread h htraced
    · cases h

theorem Reached.traced (h : Reached pg iasql s) : Traced s := by
  refine RunFrom.invariant h ?_ fun s a t htraced _ hstep => traced_step hstep htraced
  rintro _ rfl
  exact ⟨nofun, fun _ _ hr => (nomatch hr), fun _ hl => (nomatch hl)⟩

theorem copied_iff_given (h : Reached pg iasql s) : Copied s v ↔ v ∈ s.given := by
  constructor
  · rintro (⟨t, r, hr, hcarries⟩ | ⟨l, hl, hcarries⟩)
    · exact h.traced.rows t r hr v hcarries
    · exact h.traced.log l hl v hcarries
  · intro hv
    exact .inr (h.traced.kept v hv)

-- a secret that was set stays in the audit log: it is forgotten only where none was set
theorem forgotten_iff_none_given (h : Reached pg iasql s) : Forgotten s ↔ s.given = [] := by
  constructor
  · intro hforgotten
    refine List.eq_nil_iff_forall_not_mem.mpr fun v hv => hforgotten v hv ((copied_iff_given h).mpr hv)
  · intro hnil v hv
    rw [hnil] at hv
    cases hv

end Traces

section Instance

def secretPostgres : Postgres where
  columns t :=
    if t = "secret" then
      [{ name := "id", generated := true }, { name := "name" }, { name := "description" }, { name := "value" },
        { name := "version_id" }, { name := "region" }]
    else if t = "rds" then
      [{ name := "db_instance_identifier" }, { name := "db_instance_class" }, { name := "engine" },
        { name := "master_user_password" }, { name := "region" }]
    else if t = "db_cluster" then
      [{ name := "db_cluster_identifier" }, { name := "db_cluster_instance_class" },
        { name := "master_user_password" }, { name := "region" }]
    else []
  input _ _ _ := some .null
  fresh db t _ := .num ((db t).length + 1)
  rejects _ _ := false
  input_null _ _ := rfl

def textOf : JsVal → Option String
  | .str v => some v
  | _ => none

def ofText (text : Option String) : JsVal := text.elim .null .str

theorem textOf_eq_some {x : JsVal} {v : String} (h : textOf x = some v) : x = .str v := by
  cases x with
  | str w =>
    cases h
    rfl
  | _ => cases h

def secretInstalled : Installed secretPostgres where
  columns t c h := by
    unfold secretColumn at h
    split at h
    · next ht =>
      cases h
      rw [ht]
      decide
    · split at h
      · next ht =>
        cases h
        rw [ht]
        decide
      · split at h
        · next ht =>
          cases h
          rw [ht]
          decide
        · cases h
  secret :=
    { load r := ⟨none, (textOf (r "name")).getD "", textOf (r "description"), textOf (r "value"),
        textOf (r "version_id"), (textOf (r "region")).getD ""⟩
      values e := [("name", .str e.name), ("description", ofText e.description), ("value", ofText e.value),
        ("version_id", ofText e.versionId), ("region", .str e.region)]
      loads _ _ := textOf_eq_some
      stores _ := rfl }
  rds :=
    { load r :=
        { dbInstanceIdentifier := (textOf (r "db_instance_identifier")).getD ""
          allocatedStorage := 20
          dbInstanceClass := (textOf (r "db_instance_class")).getD ""
          engine := (textOf (r "engine")).getD ""
          masterUserPassword := textOf (r "master_user_password")
          region := (textOf (r "region")).getD "" }
      values e := [("db_instance_identifier", .str e.dbInstanceIdentifier),
        ("db_instance_class", .str e.dbInstanceClass), ("engine", .str e.engine),
        ("master_user_password", ofText e.masterUserPassword), ("region", .str e.region)]
      loads _ _ := textOf_eq_some
      stores _ := rfl }
  dbCluster :=
    { load r :=
        { dbClusterIdentifier := (textOf (r "db_cluster_identifier")).getD ""
          allocatedStorage := 100
          dbClusterInstanceClass := (textOf (r "db_cluster_instance_class")).getD ""
          masterUserPassword := textOf (r "master_user_password")
          region := (textOf (r "region")).getD "" }
      values e := [("db_cluster_identifier", .str e.dbClusterIdentifier),
        ("db_cluster_instance_class", .str e.dbClusterInstanceClass),
        ("master_user_password", ofText e.masterUserPassword), ("region", .str e.region)]
      loads _ _ := textOf_eq_some
      stores _ := rfl }

def secretStep (s : State) (a : Action) : State := (step secretPostgres secretInstalled s a).getD s

def secretSet : Action :=
  .statement 1 "user" [.insert "secret" [("id", .num 1), ("name", .str "token"), ("value", .str "abc"),
    ("region", .str "us-east-1")]]

def secretCreated : Action :=
  .createSecret 3 0 (.ok (some { name := "token", versionId := some "v1" })) fun _ => .ok (some { name := some "token" })

def commitMarker (changeType : AuditLogChangeType) (ts : Nat) : Action := .marker ⟨"iasql", "v1"⟩ changeType ts

-- a secret is inserted, and a commit creates it in AWS and returns
def secretCommitted : State :=
  [secretSet, commitMarker .startCommit 2, secretCreated, commitMarker .endCommit 4].foldl secretStep { db := fun _ => [] }

theorem reached_secretStep {s : State} {a : Action} (h : Reached secretPostgres secretInstalled s)
    (hsome : (step secretPostgres secretInstalled s a).isSome = true) :
    Reached secretPostgres secretInstalled (secretStep s a) :=
  RunFrom.nextGetD h trivial hsome

theorem secretCommitted_reached : Reached secretPostgres secretInstalled secretCommitted := by
  have hstart : Reached secretPostgres secretInstalled { db := fun _ => [] } := RunFrom.start rfl
  have hset := reached_secretStep (a := secretSet) hstart (by decide +kernel)
  have hopen := reached_secretStep (a := commitMarker .startCommit 2) hset (by decide +kernel)
  have hcreated := reached_secretStep (a := secretCreated) hopen (by decide +kernel)
  exact reached_secretStep (a := commitMarker .endCommit 4) hcreated (by decide +kernel)

theorem forgotten_iff_none_given_committed :
    Forgotten secretCommitted ↔ secretCommitted.given = [] :=
  forgotten_iff_none_given secretCommitted_reached

-- the row is blank, and the log has what it was
theorem audit_log_keeps_secret :
    Reached secretPostgres secretInstalled secretCommitted ∧
      (∀ r ∈ secretCommitted.db "secret", r "value" = .null) ∧ "abc" ∈ secretCommitted.given ∧
      (∃ l ∈ secretCommitted.log, LogCarries l "abc") ∧ ¬ Forgotten secretCommitted := by
  have hlog : ∃ l ∈ secretCommitted.log, LogCarries l "abc" := by
    refine ⟨_, List.mem_of_getElem? (i := 0) rfl, "value", rfl, _, .inr rfl, ?_⟩
    decide +kernel
  have hgiven : "abc" ∈ secretCommitted.given := by decide +kernel
  refine ⟨secretCommitted_reached, by decide +kernel, hgiven, hlog, fun h => h "abc" hgiven (.inr hlog)⟩

end Instance

end Iasql.SecretValues
