import Mathlib.Data.List.Nodup

namespace Iasql.EditorTabs

section Types

inductive Title where
  | gettingStarted
  | query (n : Nat)
  | plus
deriving DecidableEq

structure Db where
  dbAlias : String
  version : String
  isUnsupported : Bool := false
deriving DecidableEq

-- a result, with the database that gave it and the tab whose run it is of
structure QueryRes where
  value : String
  database : String
  launchedFrom : Title
deriving DecidableEq

structure Tab where
  title : Title
  content : String
  queryRes : Option QueryRes := none
  closable : Bool := false
  isRunning : Bool := false
deriving DecidableEq

structure AppState where
  token : Option String := none
  selectedDb : Option Db := none
  oldestVersion : Option String := none
  databases : List Db := []
  editorTabs : List Tab
  editorTabsCreated : Nat := 1
  editorSelectedTab : Nat := 0
  forceRun : Bool := false

inductive Payload where
  | selectDb (db : Db)
  | initialLoad (token : String) (initialDatabases : List Db) (oldestVersion : String)
  | newDb (newDb : String) (updatedDatabases : List Db)
  | editContent (content : String)
  | runningSql (isRunning : Bool) (tabIdx : Nat)
  | runSql (queryRes : QueryRes) (databases : Option (List Db)) (tabIdx : Nat)
  | installModule (moduleName : String)
  | uninstallModule (moduleName : String)
  | disconnectDb (databases : List Db)
  | editorNewTab
  | editorSelectTab (index : Nat)
  | editorCloseTab (index : Nat)
  | selectTable (tableName : String)

end Types

section Source

-- whether semver finds the version of a database too old: from the oldest version and its own
variable (unsupported : Option String → String → Bool)

def autoGenerated (call : String) : String :=
  "/* BEGIN IaSQL auto-generated statement */\n" ++ call ++ "\n/* END IaSQL auto-generated statement */\n"

def installContent (installModule : String) : String :=
  autoGenerated ("SELECT * FROM iasql_install('" ++ installModule ++ "');")

def uninstallContent (uninstallModule : String) : String :=
  autoGenerated ("SELECT * FROM iasql_uninstall('" ++ uninstallModule ++ "');")

def tabContent (tableName : String) : String := "SELECT * FROM " ++ tableName ++ ";"

-- before the last tab
def AppState.addTab (s : AppState) (content : String) : AppState :=
  { s with
    editorTabs := s.editorTabs.dropLast ++
      ⟨.query s.editorTabsCreated, content, none, true, false⟩ :: s.editorTabs.getLast?.toList
    editorTabsCreated := s.editorTabsCreated + 1 }

def clearResults (tabs : List Tab) : List Tab := tabs.map fun t => { t with queryRes := none }

def reducer (s : AppState) : Payload → AppState
  | .selectDb db =>
    { s with
      selectedDb := some { db with isUnsupported := unsupported s.oldestVersion db.version }
      editorTabs := if some db.dbAlias = s.selectedDb.map Db.dbAlias then s.editorTabs else clearResults s.editorTabs }
  | .initialLoad token initialDatabases oldestVersion =>
    { s with databases := initialDatabases, oldestVersion := some oldestVersion, token := some token }
  | .newDb newDb updatedDatabases =>
    { s with
      databases := updatedDatabases
      selectedDb := updatedDatabases.find? fun d => d.dbAlias == newDb
      editorTabs := clearResults s.editorTabs }
  | .editContent content =>
    { s with editorTabs := s.editorTabs.modify s.editorSelectedTab fun t => { t with content } }
  | .runningSql isRunning tabIdx =>
    { s with editorTabs := s.editorTabs.modify tabIdx fun t => { t with isRunning } }
  | .runSql queryRes databases tabIdx =>
    let tabsCopy := s.editorTabs.modify tabIdx fun t => { t with queryRes := some queryRes }
    match databases with
    | some runSqlUpdatedDbs =>
      { s with
        databases := runSqlUpdatedDbs
        selectedDb := runSqlUpdatedDbs.find? fun d => some d.dbAlias = s.selectedDb.map Db.dbAlias
        editorTabs := tabsCopy
        forceRun := false }
    | none => { s with editorTabs := tabsCopy, forceRun := false }
  | .installModule installModule => { s.addTab (installContent installModule) with forceRun := true }
  | .uninstallModule uninstallModule => { s.addTab (uninstallContent uninstallModule) with forceRun := true }
  | .disconnectDb databases => { s with selectedDb := databases.head?, databases }
  | .editorNewTab => s.addTab ""
  | .editorSelectTab index => { s with editorSelectedTab := index }
  | .editorCloseTab index => { s with editorTabs := s.editorTabs.eraseIdx index }
  | .selectTable tableName => { s.addTab (tabContent tableName) with forceRun := true }

-- a run whose statement is on its way, with the title of the tab it was launched from
structure Run where
  tabIdx : Nat
  database : String
  launchedFrom : Title

inductive Cause where
  | explicit
  | forced
deriving DecidableEq

-- a content that was sent to a database
structure Ran where
  cause : Cause
  title : Title
  content : String
deriving DecidableEq

-- generated: the statements of the actions that force a run, with the tabs made for them
structure App where
  state : AppState
  prevTabsLen : Nat
  inFlight : List Run := []
  ran : List Ran := []
  generated : List (Title × String) := []

def App.signedIn (a : App) : Bool := a.state.token.any fun token => token != ""

def App.dispatch (a : App) (payload : Payload) : App := { a with state := reducer unsupported a.state payload }

def launched (a : App) (cause : Cause) (content : String) (runningDb : Db) (tab : Tab) (tabIdx : Nat) : App :=
  { a.dispatch unsupported (.runningSql true tabIdx) with
    inFlight := a.inFlight ++ [⟨tabIdx, runningDb.dbAlias, tab.title⟩]
    ran := a.ran ++ [⟨cause, tab.title, content⟩] }

-- the middleware of RunSql up to its first wait; without a database it throws
def launch (a : App) (cause : Cause) (content : String) (db : Option Db) (tabIdx : Nat) : App :=
  match db, a.state.editorTabs[tabIdx]? with
  | some runningDb, some tab =>
    if runningDb.isUnsupported then a else launched unsupported a cause content runningDb tab tabIdx
  | _, _ => a

def contentAt (a : App) (index : Nat) : String := (a.state.editorTabs[index]?.map Tab.content).getD ""

-- the middleware of EditorSelectTab
def selectTab (a : App) (forceRun : Bool) (index : Nat) : App :=
  let contentToBeRun := contentAt a index
  let a := if a.signedIn && forceRun && contentToBeRun != "" then
    launch unsupported a .forced contentToBeRun a.state.selectedDb index else a
  a.dispatch unsupported (.editorSelectTab index)

-- after a render: the tab before the last is selected when the number of tabs has changed
def effects (a : App) : App :=
  let len := a.state.editorTabs.length
  if len = a.prevTabsLen then a
  else { selectTab unsupported a a.state.forceRun (if 2 ≤ len then len - 2 else 0) with prevTabsLen := len }

-- the rest of the middleware of RunSql
def finish (a : App) (r : Run) (value : String) (databases : Option (List Db)) : App :=
  (a.dispatch unsupported (.runningSql false r.tabIdx)).dispatch unsupported
    (.runSql ⟨value, r.database, r.launchedFrom⟩ databases r.tabIdx)

def generate (a : App) (content : String) (payload : Payload) : App :=
  { a.dispatch unsupported payload with generated := a.generated ++ [(.query a.state.editorTabsCreated, content)] }

end Source

section Events

variable (unsupported : Option String → String → Bool)

-- what the user does, and answers that come back
inductive Event where
  | editContent (content : String)
  | clickTab (i : Nat)
  | closeTab (i : Nat)
  | run (content : String)
  | installModule (moduleName : String)
  | uninstallModule (moduleName : String)
  | selectTable (tableName : String)
  | selectDb (db : Db)
  | initialLoad (token : String) (initialDatabases : List Db) (oldestVersion : String)
  | newDb (newDb : String) (updatedDatabases : List Db)
  | disconnectDb (databases : List Db)
  | finished (i : Nat) (value : String) (databases : Option (List Db))

def runsAt (a : App) (i : Nat) : Bool := a.state.editorTabs[i]?.any Tab.isRunning

-- a database is selected from the menu, which is shut while a tab runs, or by an effect, which is not;
-- with no database selected the reducer throws on a list of databases that comes with a result
def allowed (a : App) : Event → Bool
  | .clickTab i => i < a.state.editorTabs.length
  | .closeTab i => i == a.state.editorSelectedTab && a.state.editorTabs[i]?.any Tab.closable &&
      decide (2 < a.state.editorTabs.length) && !a.state.editorTabs.any Tab.isRunning
  | .run _ => a.signedIn && a.state.selectedDb.isSome && !runsAt a a.state.editorSelectedTab
  | .finished i _ databases => i < a.inFlight.length && (databases.isNone || a.state.selectedDb.isSome)
  | _ => true

def act (a : App) : Event → App
  | .editContent content => a.dispatch unsupported (.editContent content)
  | .clickTab i =>
    if i + 1 = a.state.editorTabs.length then
      -- the last tab makes a new one
      (a.dispatch unsupported .editorNewTab).dispatch unsupported (.editorSelectTab (i - 1))
    else a.dispatch unsupported (.editorSelectTab i)
  | .closeTab i => a.dispatch unsupported (.editorCloseTab i)
  | .run content => launch unsupported a .explicit content a.state.selectedDb a.state.editorSelectedTab
  | .installModule m => generate unsupported a (installContent m) (.installModule m)
  | .uninstallModule m => generate unsupported a (uninstallContent m) (.uninstallModule m)
  | .selectTable t => generate unsupported a (tabContent t) (.selectTable t)
  | .selectDb db => a.dispatch unsupported (.selectDb db)
  | .initialLoad token dbs oldest => a.dispatch unsupported (.initialLoad token dbs oldest)
  | .newDb db dbs => a.dispatch unsupported (.newDb db dbs)
  | .disconnectDb dbs => a.dispatch unsupported (.disconnectDb dbs)
  | .finished i value dbs =>
    match a.inFlight[i]? with
    | some r => { finish unsupported a r value dbs with inFlight := a.inFlight.eraseIdx i }
    | none => a

def step (a : App) (e : Event) (b : App) : Prop := allowed a e = true ∧ b = effects unsupported (act unsupported a e)

def plusTab : Tab := ⟨.plus, "", none, false, false⟩

-- after the first render; the first tab holds what a link or the welcome text says
def initial (content : String) : App where
  state := { editorTabs := [⟨.gettingStarted, content, none, true, false⟩, plusTab] }
  prevTabsLen := 2

end Events

end Iasql.EditorTabs
