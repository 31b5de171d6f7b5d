import Iasql.Calculus.Faults
import Iasql.Calculus.Runs
import Iasql.ConnectCompensation

namespace Iasql.Lifecycle

open Program Prog Runs

section Disconnect

inductive DisconnectStep where
  | getDb | connectBase | createConn
  | revokeConnect | terminateBackends
  | dropDatabase | dropRoles
deriving DecidableEq

structure DisconnectCall where
  dbAlias : String
  uid : String
  fault : DisconnectStep → Option Thrown
  delFault : ConnectStep → Option Thrown

-- what delDb knows of the call
def DisconnectCall.deletion (c : DisconnectCall) : ConnectCall where
  dbAlias := c.dbAlias
  uid := c.uid
  email := ""
  dbId := ""
  generated := ("", "")
  fault := c.delFault

def found (s : Server) (user : IasqlUser) (dbAlias : String) :
    Option (String × IasqlDatabase) :=
  (user.iasqlDatabases.filterMap fun n => (s.iasqlDatabase n).map fun db => (n, db)).find?
    fun p => p.2.dbAlias == dbAlias

def getDb (c : DisconnectCall) : Prog Connecting Thrown (String × IasqlDatabase) := do
  Prog.check (c.fault .getDb)
  let server ← Prog.reads fun s => s.server
  match server.iasqlUser c.uid with
  | none => Prog.fail (.error "EntityNotFoundError")
  | some user =>
    match found server user c.dbAlias with
    | none => Prog.fail (.error
        s!"User with ID {c.uid} has no IaSQL database with alias {c.dbAlias}")
    | some db => return db

def requireDatabase (name : String) : Prog Connecting Thrown Unit := do
  let databases ← Prog.reads fun s => s.server.databases
  if name ∈ databases then return ()
  else Prog.fail (.error s!"database \"{name}\" does not exist")

def requireRole (role : String) : Prog Connecting Thrown Unit := do
  let roles ← Prog.reads fun s => s.server.roles
  if role ∈ roles then return ()
  else Prog.fail (.error s!"role \"{role}\" does not exist")

-- the attempts to hold a transaction and to unschedule the jobs keep their errors to themselves
def disconnect (c : DisconnectCall) : Prog Connecting Thrown String := do
  let db ← getDb c
  Prog.check (c.fault .connectBase)
  Prog.check (c.fault .createConn)
  requireDatabase db.1
  Prog.check (c.fault .revokeConnect)
  requireRole db.2.pgUser
  Prog.check (c.fault .terminateBackends)
  Prog.check (c.fault .dropDatabase)
  onServer fun s => s.dropDatabase db.1
  Prog.check (c.fault .dropRoles)
  onServer fun s => s.dropRoles [db.2.pgUser, getGroupRole db.1]
  delDb c.deletion
  return db.1

end Disconnect

section Startup

-- the records in the order the query gives them
structure InitCall where
  expectedDbs : List String
  fault : String → Option Thrown

-- init, when the names of the databases are read: cleanDbs is set
def cleanDbs (c : InitCall) : Prog Connecting Thrown Unit := do
  let actualDbs ← Prog.reads fun s => s.server.databases
  Prog.each (fun name =>
    if name ∈ actualDbs then pure ()
    else do
      Prog.check (c.fault name)
      onServer fun s => s.removeDatabase name) c.expectedDbs

end Startup

section Lifecycle

inductive Call where
  | connect (c : ConnectCall)
  | disconnect (c : DisconnectCall)
  | init (c : InitCall)
  -- at the end of an RPC
  | count (c : ConnectCall)

def Call.perform : Call → Server → Server
  | .connect c, s => (Iasql.connect c { server := s }).2.server
  | .disconnect c, s => (Lifecycle.disconnect c { server := s }).2.server
  | .init c, s => (cleanDbs c { server := s }).2.server
  | .count c, s => (updateRecordCount c { server := s }).2.server

-- the names that connect draws: the identifier has sixteen random digits, the user eight letters
structure Fresh (c : ConnectCall) (s : Server) : Prop where
  pregen : c.dbPregen = none
  database : c.dbId ∉ s.databases
  row : s.iasqlDatabase c.dbId = none
  role : c.generated.1 ∉ s.roles
  user : ∀ n db, s.iasqlDatabase n = some db → db.pgUser ≠ c.generated.1
  group : ∀ n, c.generated.1 ≠ getGroupRole n

def Allowed : Server → Call → Prop
  | s, .connect c => Fresh c s
  | s, .init c => ∀ n, n ∈ c.expectedDbs ↔ (s.iasqlDatabase n).isSome
  | _, _ => True

-- the records, their users and what PostgreSQL calls them fit together
structure Ledger (s : Server) : Prop where
  joined : ∀ u n, s.Associated u n → (s.iasqlDatabase n).isSome
  logins : ∀ n db, s.iasqlDatabase n = some db → ∀ m, db.pgUser ≠ getGroupRole m
  distinct : ∀ n m db db', s.iasqlDatabase n = some db → s.iasqlDatabase m = some db' →
    db.pgUser = db'.pgUser → n = m
  aliases : ∀ u n m db db', s.Associated u n → s.Associated u m → s.iasqlDatabase n = some db →
    s.iasqlDatabase m = some db' → db.dbAlias = db'.dbAlias → n = m

structure Tenant where
  dbId : String
  uid : String
  dbAlias : String
  login : String

def tenant (c : ConnectCall) : Tenant where
  dbId := c.dbId
  uid := c.uid
  dbAlias := c.dbAlias
  login := c.generated.1

-- the database is in the metadata, with its user and no other
structure Tenant.Registered (d : Tenant) (s : Server) : Prop where
  ledger : Ledger s
  row : ∃ count, s.iasqlDatabase d.dbId = some ⟨d.dbAlias, d.login, count⟩
  joined : s.Associated d.uid d.dbId
  alone : ∀ u, s.Associated u d.dbId → u = d.uid

structure Tenant.Served (d : Tenant) (s : Server) : Prop extends d.Registered s where
  database : d.dbId ∈ s.databases
  login : d.login ∈ s.roles
  group : getGroupRole d.dbId ∈ s.roles

end Lifecycle

end Iasql.Lifecycle
