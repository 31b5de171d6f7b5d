import Iasql.Tenancy

namespace Iasql.Lifecycle

open Program Prog Frame Runs

section Ledgers

variable {s : Server} {c : ConnectCall} {user : IasqlUser} {u n : String}

theorem associated_forgotten (huser : s.iasqlUser c.uid = some user) :
    (forgotten s c user).Associated u n ↔
      s.Associated u n ∧ (u = c.uid → s.hasAlias c.dbAlias n = false) := by
  rw [forgotten, associated_saveUser]
  split
  · next hu =>
    subst hu
    simp [Server.Associated, huser, remainingUser]
  · next hu => simp [hu]

theorem Ledger.forgotten (h : Ledger s) (huser : s.iasqlUser c.uid = some user) :
    Ledger (forgotten s c user) :=
  h.shrink rfl fun _ _ hn => ((associated_forgotten huser).mp hn).1

def ledgers : Frame Server := Frame.ofInvariant Ledger

theorem tolerates_ledgers (c : ConnectCall) : Tolerates ledgers c where
  createDatabase _ h := h.shrink rfl fun _ _ hn => hn
  dropDatabase _ h := h.shrink rfl fun _ _ hn => hn
  createGroup _ h := h.shrink rfl fun _ _ hn => hn
  createLogin _ h := h.shrink rfl fun _ _ hn => hn
  dropRoles _ h := h.shrink rfl fun _ _ hn => hn
  count := keeps_count fun _ _ hdb h => h.recount hdb _
  delDb := rel_delDb (fun _ _ huser h => h.forgotten huser)
    fun _ _ _ _ huser _ h => (h.forgotten huser).remove

theorem Ledger.perform (h : Ledger s) {a : Call} (hok : Allowed s a) : Ledger (a.perform s) := by
  cases a with
  | connect c =>
    refine rel_connect (F := ledgers) hok.pregen (fun _ => tolerates_ledgers c) ?_ ?_ h
    · exact fun _ h => h.withDatabase hok
    · exact fun htaken h => h.withUser hok htaken
  | disconnect c =>
    refine rel_disconnect (F := ledgers) (fun n db _ => ?_) h
    exact ⟨fun _ h => h.shrink rfl fun _ _ hn => hn, fun _ h => h.shrink rfl fun _ _ hn => hn,
      (tolerates_ledgers _).delDb⟩
  | init c => exact rel_cleanDbs (F := ledgers) (fun _ _ _ _ h => h.remove) h
  | count c => exact (tolerates_ledgers c).count { server := s } h

end Ledgers

section Sparing

variable {d : Tenant} {s t r : Server} {c : ConnectCall} {user : IasqlUser} {n : String}

-- what the calls of others leave of a database in the metadata
structure Spared (d : Tenant) (s t : Server) : Prop where
  registered : d.Registered t
  database : d.dbId ∈ t.databases ↔ d.dbId ∈ s.databases
  login : d.login ∈ s.roles → d.login ∈ t.roles
  group : getGroupRole d.dbId ∈ s.roles → getGroupRole d.dbId ∈ t.roles

def spares (d : Tenant) : Frame Server where
  rel s t := d.Registered s → Spared d s t
  refl _ h := ⟨h, Iff.rfl, id, id⟩
  trans h h' hs :=
    have ht := h hs
    have hu := h' ht.registered
    ⟨hu.registered, hu.database.trans ht.database, hu.login ∘ ht.login, hu.group ∘ ht.group⟩

theorem Tenant.Registered.same (h : d.Registered s) (hrows : t.iasqlDatabase = s.iasqlDatabase)
    (husers : t.iasqlUser = s.iasqlUser) : d.Registered t := by
  have hassoc : ∀ u n, t.Associated u n ↔ s.Associated u n := fun u n => by
    rw [Server.Associated, Server.Associated, husers]
  refine ⟨h.ledger.shrink hrows fun u n hn => (hassoc u n).mp hn, ?_, (hassoc _ _).mpr h.joined, ?_⟩
  · rw [hrows]
    exact h.row
  · exact fun u hu => h.alone u ((hassoc _ _).mp hu)

theorem Tenant.Registered.spared (h : d.Registered t) (hnames : t.databases = s.databases)
    (hroles : t.roles = s.roles) : Spared d s t :=
  ⟨h, by rw [hnames], by rw [hroles]; exact id, by rw [hroles]; exact id⟩

theorem Tenant.Registered.remove (h : d.Registered s) (hne : n ≠ d.dbId) :
    d.Registered (s.removeDatabase n) := by
  refine ⟨h.ledger.remove, ?_, associated_removeDatabase.mpr ⟨h.joined, hne.symm⟩, ?_⟩
  · rw [removeDatabase_get, if_neg hne.symm]
    exact h.row
  · exact fun u hu => h.alone u (associated_removeDatabase.mp hu).1

theorem Tenant.Registered.forgotten (h : d.Registered s) (huser : s.iasqlUser c.uid = some user)
    (happart : ¬ (c.uid = d.uid ∧ c.dbAlias = d.dbAlias)) :
    d.Registered (forgotten s c user) := by
  refine ⟨h.ledger.forgotten huser, h.row, (associated_forgotten huser).mpr ⟨h.joined, ?_⟩, ?_⟩
  · intro hu
    obtain ⟨count, hrow⟩ := h.row
    have hne : ¬ d.dbAlias = c.dbAlias := fun heq => happart ⟨hu.symm, heq.symm⟩
    rw [Server.hasAlias, hrow]
    simpa using hne
  · exact fun u hu => h.alone u ((associated_forgotten huser).mp hu).1

-- no call of another user, nor one for another alias, means the database
theorem Tenant.Registered.ne_known (h : d.Registered s) {uid dbAlias : String} {db : IasqlDatabase}
    (hknown : Known s uid dbAlias n db) (happart : ¬ (uid = d.uid ∧ dbAlias = d.dbAlias)) :
    n ≠ d.dbId := by
  rintro rfl
  obtain ⟨hassoc, hrow, halias⟩ := hknown
  obtain ⟨count, hown⟩ := h.row
  rw [hown] at hrow
  cases hrow
  exact happart ⟨h.alone _ hassoc, halias.symm⟩

theorem Tenant.Registered.delDb (happart : ¬ (c.uid = d.uid ∧ c.dbAlias = d.dbAlias)) :
    (atServer (spares d)).Keeps (delDb c) := by
  refine rel_delDb (fun s user huser h => ?_) fun s user n db huser hknown h => ?_
  · exact (h.forgotten huser happart).spared rfl rfl
  · exact ((h.forgotten huser happart).remove (h.ne_known hknown happart)).spared rfl rfl

theorem spares_dropRoles {login m : String} (hlogin : login ≠ d.login)
    (hgroup : login ≠ getGroupRole d.dbId) (hm : getGroupRole m ≠ d.login)
    (hne : m ≠ d.dbId) (s : Server) : (spares d).rel s (s.dropRoles [login, getGroupRole m]) := by
  intro h
  refine ⟨h.same rfl rfl, Iff.rfl, fun hin => ?_, fun hin => ?_⟩
  · refine List.mem_filter.mpr ⟨hin, ?_⟩
    simpa using ⟨hlogin.symm, hm.symm⟩
  · refine List.mem_filter.mpr ⟨hin, ?_⟩
    have hgroups : getGroupRole d.dbId ≠ getGroupRole m := fun heq =>
      hne (getGroupRole_inj heq).symm
    simpa using ⟨hgroup.symm, hgroups⟩

theorem spares_createRole (role : String) (s : Server) :
    (spares d).rel s (s.createRole role) := fun h =>
  ⟨h.same rfl rfl, Iff.rfl, fun hin => mem_createRole.mpr (.inl hin),
    fun hin => mem_createRole.mpr (.inl hin)⟩

theorem spares_dropDatabase (hne : n ≠ d.dbId) (s : Server) :
    (spares d).rel s (s.dropDatabase n) := by
  refine fun h => ⟨h.same rfl rfl, ?_, id, id⟩
  rw [Server.dropDatabase, List.mem_filter]
  simpa using fun _ => hne.symm

theorem spares_createDatabase (hne : n ≠ d.dbId) (s : Server) :
    (spares d).rel s (s.createDatabase n) := by
  refine fun h => ⟨h.same rfl rfl, ?_, id, id⟩
  rw [Server.createDatabase, List.mem_append, List.mem_singleton]
  exact ⟨fun h => h.resolve_right hne.symm, .inl⟩

theorem spares_recount {db : IasqlDatabase} (hdb : s.iasqlDatabase n = some db) (count : Nat) :
    (spares d).rel s (s.saveDatabase n { db with recordCount := count }) := by
  intro h
  have hreg : d.Registered (s.saveDatabase n { db with recordCount := count }) := by
    refine ⟨h.ledger.recount hdb count, ?_, h.joined, h.alone⟩
    obtain ⟨old, hrow⟩ := h.row
    rw [saveDatabase_get]
    split
    · next heq =>
      rw [← heq, hrow] at hdb
      cases hdb
      exact ⟨count, rfl⟩
    · exact ⟨old, hrow⟩
  exact hreg.spared rfl rfl

theorem spares_withDatabase (h : d.Registered s) (hfresh : Fresh c s) :
    d.Registered (withDatabase c s) := by
  have hne : d.dbId ≠ c.dbId := by
    intro heq
    obtain ⟨count, hrow⟩ := h.row
    rw [heq, hfresh.row] at hrow
    cases hrow
  refine ⟨h.ledger.withDatabase hfresh, ?_, h.joined, h.alone⟩
  rw [withDatabase, saveDatabase_get, if_neg hne]
  exact h.row

theorem tolerates_spares (h : d.Registered s) (hfresh : Fresh c s)
    (htaken : aliasTaken c s = false) :
    Tolerates (spares d) c := by
  obtain ⟨count, hrow⟩ := h.row
  have hne : c.dbId ≠ d.dbId := by
    intro heq
    rw [← heq, hfresh.row] at hrow
    cases hrow
  have happart : ¬ (c.uid = d.uid ∧ c.dbAlias = d.dbAlias) := by
    rintro ⟨huid, halias⟩
    have htrue : aliasTaken c s = true := aliasTaken_iff.mpr
      ⟨d.dbId, huid ▸ h.joined, hasAlias_iff.mpr ⟨_, hrow, halias.symm⟩⟩
    rw [htaken] at htrue
    cases htrue
  have huser := dbUser_of_fresh hfresh
  constructor
  · exact spares_createDatabase hne
  · exact spares_dropDatabase hne
  · exact spares_createRole _
  · exact spares_createRole _
  · rw [huser]
    exact spares_dropRoles (hfresh.user _ _ hrow).symm (hfresh.group _)
      (h.ledger.logins _ _ hrow _).symm hne
  · exact keeps_count fun s db hdb => spares_recount hdb _
  · exact Tenant.Registered.delDb happart

-- the owner's own disconnect
def Call.Mine (d : Tenant) : Call → Prop
  | .disconnect c => c.uid = d.uid ∧ c.dbAlias = d.dbAlias
  | _ => False

def Call.Starts : Call → Prop
  | .init _ => True
  | _ => False

theorem spared_perform (h : d.Registered s) {a : Call} (hok : Allowed s a) (hother : ¬ a.Mine d)
    (hinit : a.Starts → d.dbId ∈ s.databases) : Spared d s (a.perform s) := by
  cases a with
  | connect c =>
    refine rel_connect (F := spares d) hok.pregen (fun ht => tolerates_spares h hok ht) ?_ ?_ h
    · exact fun _ h => (spares_withDatabase h hok).spared rfl rfl
    · intro htaken h
      have hbase := spares_withDatabase h hok
      have hreg : d.Registered (withUser c s) := by
        refine ⟨h.ledger.withUser hok htaken, hbase.row,
          associated_withUser.mpr (.inl h.joined), ?_⟩
        intro u hu
        rcases associated_withUser.mp hu with hu | ⟨-, heq⟩
        · exact h.alone u hu
        · obtain ⟨count, hrow⟩ := h.row
          rw [heq, hok.row] at hrow
          cases hrow
      exact hreg.spared rfl rfl
  | disconnect c =>
    refine rel_disconnect (F := spares d) (fun n db hknown => ?_) h
    have hne := h.ne_known hknown hother
    obtain ⟨count, hrow⟩ := h.row
    refine ⟨spares_dropDatabase hne, ?_, Tenant.Registered.delDb hother⟩
    refine spares_dropRoles ?_ (h.ledger.logins _ _ hknown.2.1 _)
      (h.ledger.logins _ _ hrow _).symm hne
    exact fun heq => hne (h.ledger.distinct _ _ _ _ hknown.2.1 hrow heq)
  | init c =>
    refine rel_cleanDbs (F := spares d) (fun t n hn _ h => ?_) h
    have hne : n ≠ d.dbId := by
      rintro rfl
      exact hn (hinit trivial)
    exact (h.remove hne).spared rfl rfl
  | count c => exact keeps_count (fun _ _ hdb => spares_recount hdb _) { server := s } h

end Sparing

section Connected

variable {c : ConnectCall} {s : Server} {P : Connecting → Prop}

def connectedServer (c : ConnectCall) (s : Server) : Server :=
  let created := ((withUser c s).createDatabase c.dbId).createRole (getGroupRole c.dbId)
  (if truthy c.dbPass then created.createRole c.generated.1 else created).saveDatabase c.dbId
    { dbAlias := c.dbAlias, pgUser := c.generated.1, recordCount := c.recCount }

theorem returns_awaits (step : ConnectStep) : Returns P (awaits c step) fun _ => P := by
  intro t _ u ht heq
  unfold awaits at heq
  cases hfault : c.fault step <;> rw [hfault] at heq <;> cases heq
  exact ht

theorem returns_each_awaits (steps : List ConnectStep) :
    Returns P (Prog.each (awaits c) steps) fun _ => P := by
  induction steps with
  | nil => exact returns_pure fun _ h => h
  | cons step steps ih => exact returns_bind (returns_awaits step) fun _ => ih

theorem returns_writes {Q : Connecting → Prop} {f : Connecting → Connecting}
    (h : ∀ t, P t → Q (f t)) :
    Returns P (Prog.writes f : Prog Connecting Thrown Unit) fun _ => Q := by
  intro t _ u ht heq
  cases heq
  exact h t ht

theorem returns_saveDb (hpre : c.dbPregen = none) : Returns (fun t => t.server = s)
    (Prog.runIf c.dbPregen.isNone (saveDb c))
    (fun _ t => aliasTaken c s = false ∧ t.server = withUser c s) := by
  intro t _ u ht heq
  rw [hpre] at heq
  have hend := ends_saveDb (c := c) t t rfl
  rw [show saveDb c t = (.returned (), u) from heq] at hend
  subst ht
  exact ⟨hend.1, congrArg Connecting.server hend.2⟩

theorem returns_createDatabase {A : Prop} {r : Server} :
    Returns (fun t => A ∧ t.server = r) (createDatabase c)
      (fun _ t => (A ∧ c.dbId ∉ r.databases) ∧ t.server = r.createDatabase c.dbId) := by
  refine returns_bind (returns_awaits _) fun _ => ?_
  rintro t _ u ⟨ha, rfl⟩ heq
  rw [Prog.reads_bind_apply] at heq
  by_cases hin : c.dbId ∈ t.server.databases
  · rw [if_pos hin] at heq
    cases heq
  · rw [if_neg hin] at heq
    cases heq
    exact ⟨⟨ha, hin⟩, rfl⟩

theorem returns_newRole {A : Prop} {r : Server} : Returns (fun t => A ∧ t.server = r)
    (Prog.runIf (truthy c.dbPass) (newPostgresRole c))
    (fun _ t => A ∧ t.server = if truthy c.dbPass then r.createRole (c.dbUser.getD "") else r) := by
  cases truthy c.dbPass with
  | false => exact returns_pure fun t ht => ht
  | true =>
    refine returns_bind (returns_awaits _) fun _ => ?_
    rintro t _ u ⟨ha, rfl⟩ heq
    rw [Prog.reads_bind_apply] at heq
    by_cases hempty : c.dbUser.getD "" = ""
    · rw [if_pos hempty] at heq
      cases heq
    by_cases hin : c.dbUser.getD "" ∈ t.server.roles
    · rw [if_neg hempty, if_pos hin] at heq
      cases heq
    · rw [if_neg hempty, if_neg hin] at heq
      cases heq
      exact ⟨ha, rfl⟩

theorem returns_grant {A : Prop} {r : Server} : Returns (fun t => A ∧ t.server = r)
    (grantPostgresGroupRole c)
    (fun _ t => (A ∧ c.dbUser.getD "" ∈ r.roles) ∧ t.server = r) := by
  refine returns_bind (returns_awaits _) fun _ => ?_
  rintro t _ u ⟨ha, rfl⟩ heq
  rw [Prog.reads_bind_apply] at heq
  cases huser : c.dbUser with
  | none =>
    simp only [huser] at heq
    cases heq
  | some user =>
    simp only [huser] at heq
    by_cases hbad : user = "" ∨ user = getGroupRole c.dbId ∨ user ∉ t.server.roles
    · rw [if_pos hbad] at heq
      cases heq
    · rw [if_neg hbad] at heq
      cases heq
      push Not at hbad
      exact ⟨⟨ha, hbad.2.2⟩, rfl⟩

theorem returns_count {A : Prop} {r : Server} {db : IasqlDatabase} (hpre : c.dbPregen = none)
    (hdb : r.iasqlDatabase c.dbId = some db) : Returns (fun t => A ∧ t.server = r)
    (Prog.runIf c.dbPregen.isNone (updateRecordCount c))
    (fun _ t => A ∧ t.server = r.saveDatabase c.dbId { db with recordCount := c.recCount }) := by
  rw [hpre]
  refine returns_bind (returns_awaits _) fun _ => ?_
  rintro t _ u ⟨ha, rfl⟩ heq
  rw [Prog.reads_bind_apply, hdb] at heq
  refine returns_bind (returns_awaits (c := c) (P := (· = t)) .saveRecordCount)
    (fun _ => returns_writes (Q := fun u => A ∧ u.server =
      t.server.saveDatabase c.dbId { db with recordCount := c.recCount }) ?_) t () u rfl heq
  rintro _ rfl
  exact ⟨ha, rfl⟩

structure Connects (c : ConnectCall) (s t : Server) : Prop where
  free : aliasTaken c s = false
  login : c.generated.1 ∈ t.roles
  server : t = connectedServer c s

theorem connectBody_returns (hfresh : Fresh c s) : Returns (fun t => t.server = s) (connectBody c)
    fun r t => r.id = c.dbId ∧ Connects c s t.server := by
  have huser := dbUser_of_fresh hfresh
  refine returns_bind (returns_writes (Q := fun t => t.server = s) fun _ h => h) fun _ => ?_
  refine returns_bind (returns_saveDb hfresh.pregen) fun _ => ?_
  refine returns_bind (returns_writes (Q := fun t => aliasTaken c s = false ∧
    t.server = withUser c s) fun _ h => h) fun _ => ?_
  refine returns_bind (returns_awaits _) fun _ => ?_
  refine returns_bind (returns_writes (Q := fun t => aliasTaken c s = false ∧
    t.server = withUser c s) fun _ h => h) fun _ => ?_
  refine returns_bind returns_createDatabase fun _ => returns_bind (returns_awaits _) fun _ => ?_
  let A := aliasTaken c s = false ∧ c.dbId ∉ (withUser c s).databases
  let r := ((withUser c s).createDatabase c.dbId).createRole (getGroupRole c.dbId)
  refine returns_bind (returns_writes (Q := fun t => A ∧
    t.server = (withUser c s).createDatabase c.dbId) fun _ h => h) fun _ => ?_
  refine returns_bind (returns_each_awaits _) fun _ => returns_bind (returns_awaits _) fun _ => ?_
  refine returns_bind (returns_writes (Q := fun t => A ∧ t.server = r) ?_) fun _ => ?_
  · rintro t ⟨ha, ht⟩
    exact ⟨ha, congrArg (fun s : Server => s.createRole (getGroupRole c.dbId)) ht⟩
  refine returns_bind returns_newRole fun _ => returns_bind returns_grant fun _ => ?_
  let r' := if truthy c.dbPass then r.createRole (c.dbUser.getD "") else r
  let A' := A ∧ c.dbUser.getD "" ∈ r'.roles
  refine returns_bind (returns_writes (Q := fun t => A' ∧ t.server = r') fun _ h => h) fun _ => ?_
  refine returns_bind (returns_awaits _) fun _ => ?_
  have hrow : r'.iasqlDatabase c.dbId =
      some { dbAlias := c.dbAlias, pgUser := c.dbUser.getD "" } := by
    have hsaved : (withDatabase c s).iasqlDatabase c.dbId =
        some { dbAlias := c.dbAlias, pgUser := c.dbUser.getD "" } := by
      rw [withDatabase, saveDatabase_get, if_pos rfl]
    change (if truthy c.dbPass then r.createRole (c.dbUser.getD "") else r).iasqlDatabase _ = _
    split <;> exact hsaved
  refine returns_bind (returns_count hfresh.pregen hrow) fun _ => returns_pure ?_
  rintro t ⟨ha, ht⟩
  refine ⟨rfl, ha.1.1, ?_, ?_⟩
  · rw [ht, ← huser]
    exact ha.2
  · rw [ht, connectedServer, ← huser]

theorem connect_returns {r : Connected} {u : Connecting} (hfresh : Fresh c s)
    (h : connect c { server := s } = (.returned r, u)) : r.id = c.dbId ∧ Connects c s u.server := by
  have hreturns : Returns (fun t => t.server = s) (connect c)
      fun r t => r.id = c.dbId ∧ Connects c s t.server := by
    refine returns_lastly
      (returns_bind (returns_attempt (connectBody_returns hfresh)) fun a => ?_) ?_
    · cases a with
      | ok connected => exact returns_pure fun t ht => ht connected rfl
      | error e =>
        exact returns_bind (Q := fun _ _ => True) (fun _ _ _ _ _ => trivial) fun _ => returns_fail _
    · intro r t hr
      have hsame : (closeAll c t).2.server = t.server := keeps_closeAll (F := Frame.ofField id) t
      rw [hsame]
      exact hr
  exact hreturns { server := s } r u rfl h

end Connected

section Served

variable {c : ConnectCall} {s t : Server} {d : Tenant} {n u : String}

theorem connectedServer_get : (connectedServer c s).iasqlDatabase n =
    if n = c.dbId then
      some { dbAlias := c.dbAlias, pgUser := c.generated.1, recordCount := c.recCount }
    else s.iasqlDatabase n := by
  rw [connectedServer, saveDatabase_get]
  split
  · rfl
  · next hne =>
    have hbase : (withDatabase c s).iasqlDatabase n = s.iasqlDatabase n := by
      rw [withDatabase, saveDatabase_get, if_neg hne]
    split <;> exact hbase

theorem associated_connected : (connectedServer c s).Associated u n ↔
    s.Associated u n ∨ u = c.uid ∧ n = c.dbId := by
  rw [← associated_withUser, connectedServer, associated_saveDatabase]
  split <;> exact Iff.rfl

theorem databases_connected : (connectedServer c s).databases = s.databases ++ [c.dbId] := by
  unfold connectedServer
  split <;> rfl

theorem mem_roles_connected : n ∈ (connectedServer c s).roles ↔
    (n ∈ s.roles ∨ n = getGroupRole c.dbId) ∨ truthy c.dbPass ∧ n = c.generated.1 := by
  have hgroup : n ∈ (((withUser c s).createDatabase c.dbId).createRole
      (getGroupRole c.dbId)).roles ↔ n ∈ s.roles ∨ n = getGroupRole c.dbId := mem_createRole
  unfold connectedServer
  split
  · next hpass =>
    change n ∈ (Server.createRole _ _).roles ↔ _
    rw [mem_createRole, hgroup]
    simp [hpass]
  · next hpass =>
    change n ∈ (Server.createRole _ _).roles ↔ _
    rw [hgroup]
    simp [hpass]

theorem Connects.served (h : Connects c s t) (hledger : Ledger s) (hfresh : Fresh c s) :
    (tenant c).Served t := by
  obtain ⟨hfree, hlogin, rfl⟩ := h
  have hnone : ∀ u, ¬ s.Associated u c.dbId := by
    intro u hu
    have hsome := hledger.joined u c.dbId hu
    rw [hfresh.row] at hsome
    cases hsome
  have hwith : Ledger (connectedServer c s) := by
    have hbase := hledger.withUser hfresh hfree
    have hdb : (withUser c s).iasqlDatabase c.dbId =
        some { dbAlias := c.dbAlias, pgUser := c.generated.1 } := by
      change (withDatabase c s).iasqlDatabase c.dbId = _
      rw [withDatabase, saveDatabase_get, if_pos rfl, dbUser_of_fresh hfresh]
    refine (hbase.recount hdb c.recCount).shrink ?_ fun u n hn => ?_
    · funext n
      rw [connectedServer_get, saveDatabase_get]
      split
      · rfl
      · next hne =>
        change _ = (withDatabase c s).iasqlDatabase n
        rw [withDatabase, saveDatabase_get, if_neg hne]
    · exact associated_withUser.mpr (associated_connected.mp hn)
  refine ⟨⟨hwith, ⟨c.recCount, ?_⟩, associated_connected.mpr (.inr ⟨rfl, rfl⟩), ?_⟩, ?_, hlogin, ?_⟩
  · exact connectedServer_get.trans (if_pos rfl)
  · rintro u hu
    rcases associated_connected.mp hu with hu | ⟨hu, -⟩
    · exact absurd hu (hnone u)
    · exact hu
  · rw [databases_connected]
    exact List.mem_append_right _ (List.mem_singleton.mpr rfl)
  · exact mem_roles_connected.mpr (.inl (.inr rfl))

def performs (s : Server) (a : Call) (t : Server) : Prop := t = a.perform s

theorem Spared.served (h : Spared d s t) (hs : d.Served s) : d.Served t :=
  ⟨h.registered, h.database.mpr hs.database, h.login hs.login, h.group hs.group⟩

theorem Tenant.Served.run (h : d.Served s)
    (hrun : RunFrom (· = s) performs (fun s a => Allowed s a ∧ ¬ a.Mine d) t) : d.Served t := by
  refine hrun.invariant (fun _ hs => hs ▸ h) ?_
  rintro s a _ hs ⟨hok, hother⟩ rfl
  exact (spared_perform hs.toRegistered hok hother fun _ => hs.database).served hs

theorem ledger_run {s₀ : Server} (h : Ledger s₀) (hrun : RunFrom (· = s₀) performs Allowed s) :
    Ledger s := by
  refine hrun.invariant (fun _ hs => hs ▸ h) ?_
  rintro s a _ hs hok rfl
  exact hs.perform hok

end Served

section Released

variable {c : DisconnectCall} {s t : Server} {d : Tenant} {n u : String}

structure Released (d : Tenant) (s t : Server) : Prop where
  databases : t.databases = s.databases.filter (· != d.dbId)
  roles : t.roles = s.roles.filter (· ∉ [d.login, getGroupRole d.dbId])
  rows : ∀ n, t.iasqlDatabase n = if n = d.dbId then none else s.iasqlDatabase n
  users : ∀ u n, t.Associated u n ↔ s.Associated u n ∧ n ≠ d.dbId

-- the user finds the database by its alias, and no other
theorem Tenant.Registered.found (h : d.Registered s) {user : IasqlUser}
    (huser : s.iasqlUser d.uid = some user) :
    ∃ count, found s user d.dbAlias = some (d.dbId, ⟨d.dbAlias, d.login, count⟩) := by
  obtain ⟨count, hrow⟩ := h.row
  obtain ⟨user', huser', hin⟩ := h.joined
  rw [huser] at huser'
  cases huser'
  refine ⟨count, ?_⟩
  cases hfound : Lifecycle.found s user d.dbAlias with
  | none =>
    rw [Lifecycle.found, List.find?_eq_none] at hfound
    have hmem : (d.dbId, (⟨d.dbAlias, d.login, count⟩ : IasqlDatabase)) ∈
        user.iasqlDatabases.filterMap fun n => (s.iasqlDatabase n).map fun db => (n, db) :=
      List.mem_filterMap.mpr ⟨d.dbId, hin, by rw [hrow]; rfl⟩
    exact absurd (beq_self_eq_true d.dbAlias) (hfound _ hmem)
  | some p =>
    obtain ⟨n, db⟩ := p
    obtain ⟨hassoc, hdb, halias⟩ := known_of_found huser hfound
    have hname : n = d.dbId := h.ledger.aliases _ _ _ _ _ hassoc h.joined hdb hrow halias
    subst hname
    rw [hrow] at hdb
    cases hdb
    rfl

theorem Tenant.Registered.alias_iff (h : d.Registered s) (hn : s.Associated d.uid n) :
    s.hasAlias d.dbAlias n = true ↔ n = d.dbId := by
  obtain ⟨count, hrow⟩ := h.row
  rw [hasAlias_iff]
  constructor
  · rintro ⟨db, hdb, halias⟩
    exact h.ledger.aliases _ _ _ _ _ hn h.joined hdb hrow halias
  · rintro rfl
    exact ⟨_, hrow, rfl⟩

theorem Tenant.Registered.find (h : d.Registered s) {user : IasqlUser}
    (huser : s.iasqlUser d.uid = some user) :
    user.iasqlDatabases.find? (s.hasAlias d.dbAlias) = some d.dbId := by
  have hassoc : ∀ n ∈ user.iasqlDatabases, s.Associated d.uid n := fun n hn => ⟨user, huser, hn⟩
  cases hfind : user.iasqlDatabases.find? (s.hasAlias d.dbAlias) with
  | none =>
    obtain ⟨user', huser', hin⟩ := h.joined
    rw [huser] at huser'
    cases huser'
    exact absurd ((h.alias_iff (hassoc _ hin)).mpr rfl) (List.find?_eq_none.mp hfind _ hin)
  | some n =>
    have hn := hassoc n (List.mem_of_find?_eq_some hfind)
    rw [(h.alias_iff hn).mp (List.find?_some hfind)]

-- a call that names the database and in which nothing fails
structure Faultless (d : Tenant) (c : DisconnectCall) : Prop where
  uid : c.uid = d.uid
  dbAlias : c.dbAlias = d.dbAlias
  fault : ∀ step, c.fault step = none
  delFault : ∀ step, c.delFault step = none

theorem delDb_faultless (h : d.Registered s) (hcall : Faultless d c) {v : Connecting}
    (hst : v.server = s) {user : IasqlUser} (huser : s.iasqlUser d.uid = some user) :
    delDb c.deletion v = (.returned (), { v with
      server := (forgotten s c.deletion user).removeDatabase d.dbId }) := by
  have hawaits : ∀ step (t : Connecting), awaits c.deletion step t = (.returned (), t) := by
    intro step t
    simp [awaits, DisconnectCall.deletion, hcall.delFault]
  have hfind := h.find huser
  subst hst
  rw [delDb, Prog.bind_of_returned (hawaits _ _), Prog.reads_bind_apply]
  have huser' : v.server.iasqlUser c.deletion.uid = some user := by
    rw [DisconnectCall.deletion, hcall.uid]
    exact huser
  have hfind' : user.iasqlDatabases.find? (v.server.hasAlias c.deletion.dbAlias) =
      some d.dbId := by
    rw [DisconnectCall.deletion, hcall.dbAlias]
    exact hfind
  simp only [huser', hfind']
  rw [Prog.bind_of_returned (hawaits _ _)]
  refine (Prog.bind_of_returned rfl).trans ?_
  rw [Prog.bind_of_returned (hawaits _ _)]
  rfl

theorem wrote (f : Server → Server) (v : Connecting) :
    onServer f v = (.returned (), { v with server := f v.server }) := rfl

theorem disconnect_faultless (h : d.Served s) (hcall : Faultless d c) :
    ∃ t, disconnect c { server := s } = (.returned d.dbId, t) ∧ Released d s t.server := by
  obtain ⟨user, huser, hin⟩ := h.joined
  obtain ⟨count, hfound⟩ := h.toRegistered.found huser
  have hget : getDb c { server := s } =
      (.returned (d.dbId, ⟨d.dbAlias, d.login, count⟩), { server := s }) := by
    rw [getDb, hcall.fault, Prog.check_none_bind, Prog.reads_bind_apply, hcall.uid, hcall.dbAlias]
    simp only [huser, hfound]
    rfl
  have hdatabase : requireDatabase d.dbId { server := s } = (.returned (), { server := s }) := by
    rw [requireDatabase, Prog.reads_bind_apply, if_pos h.database]
    rfl
  have hrole : requireRole d.login { server := s } = (.returned (), { server := s }) := by
    rw [requireRole, Prog.reads_bind_apply, if_pos h.login]
    rfl
  let dropped := (s.dropDatabase d.dbId).dropRoles [d.login, getGroupRole d.dbId]
  have hdel := delDb_faultless (h.toRegistered.same (t := dropped) rfl rfl) hcall
    (v := { server := dropped }) rfl huser
  refine ⟨{ server := (forgotten dropped c.deletion user).removeDatabase d.dbId }, ?_, ?_⟩
  · have hpass : ∀ (step : DisconnectStep) (k : Unit → Prog Connecting Thrown String) st,
        (Prog.check (c.fault step) >>= k) st = k () st := by
      intro step k st
      rw [hcall.fault, Prog.check_none_bind]
    rw [disconnect, Prog.bind_of_returned hget, hpass, hpass, Prog.bind_of_returned hdatabase,
      hpass, Prog.bind_of_returned hrole, hpass, hpass, Prog.bind_of_returned (wrote _ _), hpass,
      Prog.bind_of_returned (wrote _ _), Prog.bind_of_returned hdel]
    rfl
  · refine ⟨rfl, rfl, fun n => removeDatabase_get, fun u n => ?_⟩
    have huser' : dropped.iasqlUser c.deletion.uid = some user := by
      rw [DisconnectCall.deletion, hcall.uid]
      exact huser
    rw [associated_removeDatabase, associated_forgotten huser']
    constructor
    · rintro ⟨⟨hn, -⟩, hne⟩
      exact ⟨hn, hne⟩
    · rintro ⟨hn, hne⟩
      refine ⟨⟨hn, fun hu => ?_⟩, hne⟩
      rw [DisconnectCall.deletion, hcall.uid] at hu
      subst hu
      rw [DisconnectCall.deletion, hcall.dbAlias]
      have hiff := h.toRegistered.alias_iff hn
      exact Bool.eq_false_iff.mpr fun htrue => hne (hiff.mp htrue)

end Released

section Tenancy

variable {s₀ s t : Server} {c : ConnectCall} {r : Connected} {u : Connecting}

def emptyServer : Server where
  databases := ["postgres", "iasql_metadata"]
  roles := ["postgres"]
  iasqlDatabase := fun _ => none
  iasqlUser := fun _ => none

def devConnect : ConnectCall where
  dbAlias := "dev"
  uid := "alice"
  email := "a@b.c"
  dbId := "_0123456789abcdef"
  generated := ("qwertyui", "secret")
  fault := fun _ => none

def devDisconnect (uid : String) : DisconnectCall where
  dbAlias := "dev"
  uid := uid
  fault := fun _ => none
  delFault := fun _ => none

theorem ledger_empty : Ledger emptyServer := by
  constructor
  · rintro u n ⟨user, huser, -⟩
    cases huser
  · rintro n db hdb
    cases hdb
  · rintro n m db db' hdb
    cases hdb
  · rintro u n m db db' ⟨user, huser, -⟩
    cases huser

theorem ne_getGroupRole {login : String} (h : login.toList.head? ≠ some 'g') (n : String) :
    login ≠ getGroupRole n := by
  intro heq
  have hlist : login.toList = ("group_role_" ++ n).toList := congrArg String.toList heq
  rw [hlist, String.toList_append] at h
  exact h rfl

theorem fresh_dev : Fresh devConnect emptyServer where
  pregen := rfl
  database := by decide
  row := rfl
  role := by decide
  user := fun _ _ h => by cases h
  group := ne_getGroupRole (by decide)

def devServer : Server := (connect devConnect { server := emptyServer }).2.server

def devTenant : Tenant := tenant devConnect

def bobDisconnects : Call := .disconnect (devDisconnect "bob")

end Tenancy

section Stuck

variable {s t : Server} {d : Tenant}

-- the database is gone and the metadata still have it
structure Stuck (d : Tenant) (s : Server) : Prop extends d.Registered s where
  gone : d.dbId ∉ s.databases

theorem not_mem_dropDatabase (name : String) (s : Server) :
    name ∉ (s.dropDatabase name).databases := by simp [Server.dropDatabase]

theorem Stuck.disconnect {c : DisconnectCall} (h : Stuck d s) (huid : c.uid = d.uid)
    (halias : c.dbAlias = d.dbAlias) :
    ∃ e, disconnect c { server := s } = (.thrown e, { server := s }) := by
  obtain ⟨user, huser, hin⟩ := h.joined
  obtain ⟨count, hfound⟩ := h.toRegistered.found huser
  rw [Lifecycle.disconnect]
  cases hfault : c.fault .getDb with
  | some e =>
    refine ⟨e, Prog.bind_of_thrown ?_⟩
    rw [getDb, hfault, Prog.check_some_bind]
  | none =>
    have hget : getDb c { server := s } =
        (.returned (d.dbId, ⟨d.dbAlias, d.login, count⟩), { server := s }) := by
      rw [getDb, hfault, Prog.check_none_bind, Prog.reads_bind_apply, huid, halias]
      simp only [huser, hfound]
      rfl
    rw [Prog.bind_of_returned hget]
    cases c.fault .connectBase with
    | some e => exact ⟨e, rfl⟩
    | none =>
      cases c.fault .createConn with
      | some e => exact ⟨e, rfl⟩
      | none =>
        refine ⟨.error s!"database \"{d.dbId}\" does not exist", ?_⟩
        rw [Prog.check_none_bind, Prog.check_none_bind]
        refine Prog.bind_of_thrown ?_
        rw [requireDatabase, Prog.reads_bind_apply, if_neg h.gone]
        rfl

theorem lastly_thrown {α : Type} {p : Prog Connecting Thrown α} {q : Prog Connecting Thrown Unit}
    {e : Thrown} {st t u : Connecting} (h : p st = (.thrown e, t)) (hq : q t = (.returned (), u)) :
    p.lastly q st = (.thrown e, u) := by
  rw [Prog.lastly, h]
  simp only [hq]

theorem connect_taken {c : ConnectCall} (hpre : c.dbPregen = none)
    (htaken : aliasTaken c s = true) :
    ∃ e u, connect c { server := s } = (.thrown e, u) ∧ u.server = s := by
  let t : Connecting := { server := s, dbUser := c.dbUser }
  have hsave : ∃ e, saveDb c t = (.thrown e, t) := by
    rw [saveDb, awaits]
    cases c.fault .findUser with
    | some e => exact ⟨e, rfl⟩
    | none =>
      refine ⟨.error
        s!"User with ID {c.uid} already has an IaSQL database with alias {c.dbAlias}",
        (Prog.bind_of_returned rfl).trans ?_⟩
      rw [Prog.reads_bind_apply]
      rw [aliasTaken] at htaken
      exact congrFun (if_pos htaken) t
  obtain ⟨e, hsave⟩ := hsave
  have hbody : connectBody c { server := s } = (.thrown e, t) := by
    refine (Prog.bind_of_returned rfl).trans (Prog.bind_of_thrown ?_)
    rw [hpre]
    exact hsave
  refine ⟨e, t, ?_, rfl⟩
  have hclosed : closeAll c t = (.returned (), t) := rfl
  unfold connect
  refine lastly_thrown ((Prog.bind_of_returned (attempt_error.mpr hbody)).trans ?_) hclosed
  exact Prog.bind_of_returned (dropAll_unsaved rfl rfl)

theorem Tenant.Registered.taken {c : ConnectCall} (h : d.Registered s) (huid : c.uid = d.uid)
    (halias : c.dbAlias = d.dbAlias) : aliasTaken c s = true := by
  refine aliasTaken_iff.mpr ⟨d.dbId, huid ▸ h.joined, ?_⟩
  rw [halias]
  exact (h.alias_iff h.joined).mpr rfl

theorem Stuck.perform (h : Stuck d s) {a : Call} (hok : Allowed s a) (hstart : ¬ a.Starts) :
    Stuck d (a.perform s) := by
  by_cases hmine : a.Mine d
  · cases a with
    | disconnect c =>
      obtain ⟨e, hthrown⟩ := h.disconnect hmine.1 hmine.2
      rw [Call.perform, hthrown]
      exact h
    | _ => exact hmine.elim
  · have hspared := spared_perform h.toRegistered hok hmine fun h => absurd h hstart
    exact ⟨hspared.registered, fun hin => h.gone (hspared.database.mp hin)⟩

-- what a start in which nothing fails leaves
structure Cleaned (s t : Server) : Prop where
  databases : t.databases = s.databases
  roles : t.roles = s.roles
  rows : ∀ n, t.iasqlDatabase n = if n ∈ s.databases then s.iasqlDatabase n else none
  users : ∀ u n, t.Associated u n ↔ s.Associated u n ∧ n ∈ s.databases

theorem cleanDbs_faultless {c : InitCall} (hledger : Ledger s) (hok : Allowed s (.init c))
    (hfault : ∀ n, c.fault n = none) :
    ∃ t, cleanDbs c { server := s } = (.returned (), t) ∧ Cleaned s t.server := by
  have hends : Ends (fun t : Connecting => t = { server := s })
      (Prog.each (fun name =>
        if name ∈ s.databases then pure ()
        else do
          Prog.check (c.fault name)
          onServer fun s => s.removeDatabase name) c.expectedDbs)
      (fun _ t => t.server.databases = s.databases ∧ t.server.roles = s.roles ∧
        (∀ n, t.server.iasqlDatabase n =
          if n ∈ c.expectedDbs ∧ n ∉ s.databases then none else s.iasqlDatabase n) ∧
        ∀ u n, t.server.Associated u n ↔
          s.Associated u n ∧ ¬ (n ∈ c.expectedDbs ∧ n ∉ s.databases))
      (fun _ => False) := by
    refine (ends_each (fun before (t : Connecting) => t.server.databases = s.databases ∧
      t.server.roles = s.roles ∧
      (∀ n, t.server.iasqlDatabase n =
        if n ∈ before ∧ n ∉ s.databases then none else s.iasqlDatabase n) ∧
      ∀ u n, t.server.Associated u n ↔ s.Associated u n ∧ ¬ (n ∈ before ∧ n ∉ s.databases))
      ?_).mono ?_ (fun _ _ h => h) fun _ h => h
    · rintro before name after - t ⟨hdbs, hroles, hrows, husers⟩
      by_cases hname : name ∈ s.databases
      · rw [if_pos hname]
        refine ⟨hdbs, hroles, fun n => ?_, fun u n => ?_⟩
        · rw [hrows]
          by_cases hn : n = name <;> simp [hn, hname]
        · rw [husers]
          by_cases hn : n = name <;> simp [hn, hname]
      · rw [if_neg hname, hfault]
        refine ⟨hdbs, hroles, fun n => ?_, fun u n => ?_⟩
        · change (t.server.removeDatabase name).iasqlDatabase n = _
          rw [removeDatabase_get, hrows]
          by_cases hn : n = name <;> simp [hn, hname]
        · change (t.server.removeDatabase name).Associated u n ↔ _
          rw [associated_removeDatabase, husers]
          by_cases hn : n = name <;> simp [hn, hname]
    · rintro t rfl
      simp
  have hend := hends _ rfl
  rw [cleanDbs, Prog.reads_bind_apply]
  split at hend
  · next u hrun =>
    refine ⟨u, hrun, ?_⟩
    obtain ⟨hdbs, hroles, hrows, husers⟩ := hend
    refine ⟨hdbs, hroles, fun n => ?_, fun v n => ?_⟩
    · rw [hrows]
      by_cases hin : n ∈ s.databases
      · simp [hin]
      · cases hrow : s.iasqlDatabase n <;> simp [hin, hok n, hrow]
    · rw [husers]
      refine and_congr_right fun hassoc => ?_
      simp [hok n, hledger.joined v n hassoc]
  · exact hend.elim

theorem connects_dev : Connects devConnect emptyServer devServer :=
  (connect_returns (r := ⟨some "qwertyui", some "secret", 0, "dev", "_0123456789abcdef"⟩)
    (u := (connect devConnect { server := emptyServer }).2) fresh_dev rfl).2

theorem served_dev : devTenant.Served devServer := connects_dev.served ledger_empty fresh_dev

end Stuck

section Settled

variable {s : Server} {d : Tenant} {c : DisconnectCall}

structure Gone (d : Tenant) (s : Server) : Prop where
  ledger : Ledger s
  database : d.dbId ∉ s.databases
  users : ∀ u, ¬ s.Associated u d.dbId

theorem Stuck.gone_of_forgotten (h : Stuck d s) (huid : c.uid = d.uid)
    (halias : c.dbAlias = d.dbAlias) {user : IasqlUser}
    (huser : s.iasqlUser c.deletion.uid = some user) : Gone d (forgotten s c.deletion user) := by
  refine ⟨h.ledger.forgotten huser, h.gone, fun u hu => ?_⟩
  obtain ⟨hassoc, hkept⟩ := (associated_forgotten huser).mp hu
  have hown : u = d.uid := h.alone u hassoc
  have hfalse := hkept (hown.trans huid.symm)
  rw [DisconnectCall.deletion, halias, (h.alias_iff h.joined).mpr rfl] at hfalse
  cases hfalse

theorem ends_disconnect (h : d.Served s) (huid : c.uid = d.uid) (halias : c.dbAlias = d.dbAlias) :
    Ends (· = { server := s }) (disconnect c)
      (fun _ t => t.server = s ∨ Stuck d t.server ∨ Gone d t.server)
      (fun t => t.server = s ∨ Stuck d t.server ∨ Gone d t.server) := by
  obtain ⟨count, hrow⟩ := h.row
  have hstart : ∀ t : Connecting, t = { server := s } →
      t.server = s ∨ Stuck d t.server ∨ Gone d t.server := by
    rintro _ rfl
    exact .inl rfl
  have hstuck : ∀ t : Connecting, Stuck d t.server →
      t.server = s ∨ Stuck d t.server ∨ Gone d t.server := fun t ht => .inr (.inl ht)
  refine ends_bind ((ends_getDb _).mono (fun _ h => h) (fun _ _ h => h) hstart) fun p => ?_
  obtain ⟨n, db⟩ := p
  rintro _ ⟨rfl, hassoc, hdb, hsame⟩
  rw [huid] at hassoc
  have hn : n = d.dbId := h.ledger.aliases _ _ _ _ _ hassoc h.joined hdb hrow (hsame.trans halias)
  subst hn
  refine ends_bind (ends_still (keeps_check _) hstart) (fun _ => ?_) _ rfl
  refine ends_bind (ends_still (keeps_check _) hstart) fun _ => ?_
  refine ends_bind (ends_still (keeps_requireDatabase _) hstart) fun _ => ?_
  refine ends_bind (ends_still (keeps_check _) hstart) fun _ => ?_
  refine ends_bind (ends_still (keeps_requireRole _) hstart) fun _ => ?_
  refine ends_bind (ends_still (keeps_check _) hstart) fun _ => ?_
  refine ends_bind (ends_still (keeps_check _) hstart) fun _ => ?_
  refine ends_bind (R := fun _ t => Stuck d t.server) ?_ fun _ => ?_
  · rintro _ rfl
    exact ⟨h.toRegistered.same rfl rfl, not_mem_dropDatabase _ _⟩
  refine ends_bind (ends_still (keeps_check _) hstuck) fun _ => ?_
  refine ends_bind (R := fun _ t => Stuck d t.server) ?_ fun _ => ?_
  · intro t ht
    exact ⟨ht.toRegistered.same rfl rfl, ht.gone⟩
  refine ends_bind (R := fun _ t => Gone d t.server) ?_ fun _ => ?_
  · intro t ht
    refine ((ends_delDb (c := c.deletion) t).mono (fun _ h => h) ?_ ?_) t rfl
    · rintro - u ⟨user, n, row, huser, -, hu⟩
      have hgone := ht.gone_of_forgotten huid halias huser
      rw [hu]
      refine ⟨hgone.ledger.remove, hgone.database, fun v hv => ?_⟩
      exact hgone.users v (associated_removeDatabase.mp hv).1
    · rintro u (hu | ⟨user, huser, hu⟩)
      · exact .inr (.inl (hu ▸ ht))
      · exact .inr (.inr (hu ▸ ht.gone_of_forgotten huid halias huser))
  · intro t ht
    exact .inr (.inr ht)

-- the roles could not be dropped
def devFailing : DisconnectCall :=
  { devDisconnect "alice" with
    fault := fun step => if step = .dropRoles then some (.error "refused") else none }

def devStart : InitCall := ⟨["_0123456789abcdef"], fun _ => none⟩

end Settled

end Iasql.Lifecycle
