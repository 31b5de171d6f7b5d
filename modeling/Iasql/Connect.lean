import Iasql.LazyDep
import Mathlib.Data.List.Dedup
import Mathlib.Logic.Function.Basic

namespace Iasql

open Program

section Metadata

structure IasqlDatabase where
  dbAlias : String
  pgUser : String
  recordCount : Nat := 0
deriving DecidableEq

structure IasqlUser where
  email : String
  iasqlDatabases : List String
deriving DecidableEq

-- the rows of the metadata by their keys, a user's with its rows of the join table
structure Server where
  databases : List String
  roles : List String
  iasqlDatabase : String → Option IasqlDatabase
  iasqlUser : String → Option IasqlUser

namespace Server

variable (s : Server)

def hasAlias (dbAlias name : String) : Bool := (s.iasqlDatabase name).any (·.dbAlias == dbAlias)

def saveDatabase (name : String) (db : IasqlDatabase) : Server :=
  { s with iasqlDatabase := Function.update s.iasqlDatabase name (some db) }

-- a user and a database have one row of the join table at most
def saveUser (id : String) (user : IasqlUser) : Server :=
  let row := { user with iasqlDatabases := user.iasqlDatabases.dedup }
  { s with iasqlUser := Function.update s.iasqlUser id (some row) }

-- the rows of the join table go with the database
def removeDatabase (name : String) : Server :=
  { s with
    iasqlDatabase := Function.update s.iasqlDatabase name none
    iasqlUser := fun id => (s.iasqlUser id).map fun user =>
      { user with iasqlDatabases := user.iasqlDatabases.filter (· != name) } }

def createRole (role : String) : Server :=
  { s with roles := if role ∈ s.roles then s.roles else s.roles ++ [role] }

def dropRoles (roles : List String) : Server := { s with roles := s.roles.filter (· ∉ roles) }

def createDatabase (name : String) : Server := { s with databases := s.databases ++ [name] }

def dropDatabase (name : String) : Server :=
  { s with databases := s.databases.filter (· != name) }

end Server

end Metadata

section Connect

def genDbId (multiUser : Bool) (randomHexValue dbAlias : String) : String :=
  if multiUser then s!"_{randomHexValue}" else dbAlias

def getGroupRole (dbId : String) : String := s!"group_role_{dbId}"

inductive ConnectStep where
  | findUser | saveDatabase | saveUser
  | connectBase | createDatabase | connectDatabase
  | migrate | createHttp | setUpDblink | schedule | schedulePurge
  | createGroupRole | createRole | grantGroupRole
  | getDbRecCount | findDatabase | saveRecordCount
  | dropDatabase | dropRoles | findUserOrFail | saveRemainingUser | removeDatabase
  | closeBase | closeDatabase
deriving DecidableEq

structure ConnectCall where
  dbAlias : String
  uid : String
  email : String
  dbId : String
  dbPregen : Option (List String) := none
  -- what genUserAndPass returns, and what getDbRecCount counts
  generated : String × String
  recCount : Nat := 0
  fault : ConnectStep → Option Thrown

structure Connected where
  user : Option String
  password : Option String
  recordCount : Nat
  dbAlias : String
  id : String
deriving DecidableEq

structure Connecting where
  server : Server
  conn1 : Bool := false
  conn2 : Bool := false
  dbUser : Option String := none
  dbSaved : Bool := false
  roleGranted : Bool := false

variable (c : ConnectCall)

namespace ConnectCall

def dbGen : List String := c.dbPregen.getD [c.generated.1, c.generated.2]

def dbUser : Option String := c.dbGen[0]?

def dbPass : Option String := c.dbGen[1]?

def fails (step : ConnectStep) : Bool := (c.fault step).isSome

end ConnectCall

def awaits (step : ConnectStep) : Prog Connecting Thrown Unit :=
  match c.fault step with
  | some e => Prog.fail e
  | none => return ()

def onServer (f : Server → Server) : Prog Connecting Thrown Unit :=
  Prog.writes fun s => { s with server := f s.server }

def truthy (text : Option String) : Bool := text.any (· != "")

def saveDb : Prog Connecting Thrown Unit := do
  awaits c .findUser
  let server ← Prog.reads fun s => s.server
  let user := server.iasqlUser c.uid
  if user.any fun u => u.iasqlDatabases.any (server.hasAlias c.dbAlias) then
    Prog.fail (.error
      s!"User with ID {c.uid} already has an IaSQL database with alias {c.dbAlias}")
  else do
    awaits c .saveDatabase
    onServer fun s => s.saveDatabase c.dbId { dbAlias := c.dbAlias, pgUser := c.dbUser.getD "" }
    awaits c .saveUser
    let saved := user.getD { email := c.email, iasqlDatabases := [] }
    onServer fun s => s.saveUser c.uid
      { saved with iasqlDatabases := saved.iasqlDatabases ++ [c.dbId] }

def updateRecordCount : Prog Connecting Thrown Unit := do
  awaits c .findDatabase
  match ← Prog.reads fun s => s.server.iasqlDatabase c.dbId with
  | none => return ()
  | some db => do
    awaits c .saveRecordCount
    onServer fun s => s.saveDatabase c.dbId { db with recordCount := c.recCount }

def delDb : Prog Connecting Thrown Unit := do
  awaits c .findUserOrFail
  let server ← Prog.reads fun s => s.server
  match server.iasqlUser c.uid with
  | none => Prog.fail (.error "EntityNotFoundError")
  | some user =>
    match user.iasqlDatabases.find? (server.hasAlias c.dbAlias) with
    | none => Prog.fail (.error
        s!"User with ID {c.uid} has no IaSQL database with alias {c.dbAlias}")
    | some dbToDel => do
      awaits c .saveRemainingUser
      onServer fun s => s.saveUser c.uid { user with
        iasqlDatabases := user.iasqlDatabases.filter fun n => !server.hasAlias c.dbAlias n }
      awaits c .removeDatabase
      onServer fun s => s.removeDatabase dbToDel

def createDatabase : Prog Connecting Thrown Unit := do
  awaits c .createDatabase
  let databases ← Prog.reads fun s => s.server.databases
  if c.dbId ∈ databases then Prog.fail (.error s!"database \"{c.dbId}\" already exists")
  else onServer fun s => s.createDatabase c.dbId

def newPostgresRole : Prog Connecting Thrown Unit := do
  awaits c .createRole
  let roles ← Prog.reads fun s => s.server.roles
  let user := c.dbUser.getD ""
  if user = "" then Prog.fail (.error "zero-length delimited identifier")
  else if user ∈ roles then Prog.fail (.error s!"role \"{user}\" already exists")
  else onServer fun s => s.createRole user

-- the role has to be there, and is not granted to itself
def grantPostgresGroupRole : Prog Connecting Thrown Unit := do
  awaits c .grantGroupRole
  let roles ← Prog.reads fun s => s.server.roles
  match c.dbUser with
  | none => Prog.fail (.error "SQL identifier cannot be null or undefined")
  | some user =>
    if user = "" ∨ user = getGroupRole c.dbId ∨ user ∉ roles then
      Prog.fail (.error s!"role \"{user}\" does not exist")
    else return ()

def connectBody : Prog Connecting Thrown Connected := do
  Prog.writes fun s => { s with dbUser := c.dbUser }
  Prog.runIf c.dbPregen.isNone (saveDb c)
  Prog.writes fun s => { s with dbSaved := true }
  awaits c .connectBase
  Prog.writes fun s => { s with conn1 := true }
  createDatabase c
  awaits c .connectDatabase
  Prog.writes fun s => { s with conn2 := true }
  Prog.each (awaits c) [.migrate, .createHttp, .setUpDblink, .schedule, .schedulePurge]
  awaits c .createGroupRole
  onServer fun s => s.createRole (getGroupRole c.dbId)
  Prog.runIf (truthy c.dbPass) (newPostgresRole c)
  grantPostgresGroupRole c
  Prog.writes fun s => { s with roleGranted := true }
  awaits c .getDbRecCount
  Prog.runIf c.dbPregen.isNone (updateRecordCount c)
  return { user := c.dbUser, password := c.dbPass, recordCount := c.recCount,
           dbAlias := c.dbAlias, id := c.dbId }

def dropDatabase : Prog Connecting Thrown Unit := do
  awaits c .dropDatabase
  onServer fun s => s.dropDatabase c.dbId

def dropPostgresRole : Prog Connecting Thrown Unit := do
  awaits c .dropRoles
  onServer fun s => s.dropRoles [c.dbUser.getD "", getGroupRole c.dbId]

def dropAll : Prog Connecting Thrown Unit := do
  let s ← Prog.reads fun s => s
  Prog.runIf (s.dbSaved && s.conn1) (dropDatabase c)
  Prog.runIf (truthy s.dbUser && s.roleGranted && s.conn1) (dropPostgresRole c)
  Prog.runIf (s.dbSaved && c.dbPregen.isNone) (delDb c)

def closeAll : Prog Connecting Thrown Unit := do
  let s ← Prog.reads fun s => s
  Prog.runIf s.conn1 (awaits c .closeBase)
  Prog.runIf s.conn2 (awaits c .closeDatabase)

def connect : Prog Connecting Thrown Connected :=
  Prog.lastly (do
    match ← (connectBody c).attempt with
    | .ok connected => return connected
    | .error e => do
      dropAll c
      Prog.fail e) (closeAll c)

end Connect

end Iasql
