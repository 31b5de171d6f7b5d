import Iasql.LazyDep

namespace Iasql.Dashboard

open Program

section Request

structure JwtPayload where
  sub : Option String := none
  email : Option String := none
deriving DecidableEq

structure StripeConfig where
  paymentLink : String
  whitelistedDomains : List String

-- client_reference_id takes letters, digits, dashes and underscores
def conformUidToStripe (uid : String) : String :=
  String.ofList (uid.toList.filter fun c => c.isAlphanum || c == '_' || c == '-')

-- madeFor is the user whose payment link opened the session, which Stripe does not keep
structure CheckoutSession where
  customer : Bool
  status : String
  clientReferenceId : Option String
  madeFor : Option String
  fromLink : ∀ uid, madeFor = some uid → clientReferenceId = some (conformUidToStripe uid)

structure UserDatabase where
  iasqlUserId : String
  dbAlias : String
  pgName : String
deriving DecidableEq

structure RunRequest where
  authorization : Option String
  -- dbAlias and sql
  body : Option (String × String)

structure UserData where
  username : String
  password : String
  email : String
deriving DecidableEq

inductive QueryRes where
  | text (result : String)
  | result (command : String) (rowCount : Option Nat) (rows : Option (List String))
      (fields : List (String × Nat))
deriving DecidableEq

inductive StatementOutput where
  | affected (statement : String) (affectedRecords : Nat)
  | text (statement result : String)
  | rows (statement : String) (result : List String) (types : List (String × Nat))
  | error (statement error : String)
deriving DecidableEq

-- the calls of res.json, each with its status
inductive Answer where
  | output (out : List StatementOutput)
  | unauthorized (message : String)
  | forbidden (error paymentLink : String)
  | interrupted (error : String)
deriving DecidableEq

inductive MetaQuery where
  | role | getUserDataLookup | grant (maxTries : Nat) | runSqlLookup
deriving DecidableEq

structure DashboardEnv (Stmt : Type) where
  auth : Bool
  stripe : Option StripeConfig
  iasqlUid : String
  password : String
  -- the header of a token that decodes, the public key of its kid, and the verified payload
  jwtDecode : String → Option String
  getSigningKey : String → Outcome Thrown String
  jwtVerify : String → String → Except Thrown JwtPayload
  metaQuery : MetaQuery → Outcome Thrown Unit
  userDatabases : MetaQuery → List UserDatabase
  -- the sessions that the list yields, and how it ends
  sessions : List CheckoutSession
  sessionsEnd : Outcome Thrown Unit
  parse : String → Except Thrown (List Stmt)
  deparse : Stmt → Except Thrown String
  -- of the client of the n-th statement
  connect : Nat → Outcome Thrown Unit
  query : Nat → Outcome Thrown QueryRes
  close : Nat → Outcome Thrown Unit
  -- after how many awaits the n-th client emits an error, once for each element
  interruptions : Nat → List Nat
  errorId : String
  -- after how many awaits the 15 minutes are over
  timeout : Option Nat

structure RunState where
  answers : List Answer := []
  executed : List (String × String) := []
  pending : List (Nat × Answer) := []
  timer : Option Nat := none
  finished : Bool := false

end Request

section Endpoint

variable {Stmt : Type} (env : DashboardEnv Stmt)

def timeoutMessage : String := s!"Timeout of {15 * 60 * 1000 - 100}ms reached"

def expire (s : RunState) : RunState :=
  match s.timer with
  | none => s
  | some (n + 1) => { s with timer := some n }
  | some 0 =>
    if s.finished then { s with timer := none }
    else { s with
      timer := none
      finished := true
      answers := s.answers ++ [.unauthorized timeoutMessage] }

-- what happens while an await is pending
def tick (s : RunState) : RunState :=
  let due := s.pending.filter (·.1 == 0)
  let later := s.pending.filter (·.1 != 0)
  expire { s with
    answers := s.answers ++ due.map (·.2)
    pending := later.map fun e => (e.1 - 1, e.2) }

def settled {α : Type} : Outcome Thrown α → Prog RunState Thrown α
  | .returned a => return a
  | .thrown e => Prog.fail e
  | .diverged => Prog.diverge

def awaited {α : Type} (o : Outcome Thrown α) : Prog RunState Thrown α := do
  Prog.writes tick
  settled o

def ofExcept {α : Type} : Except Thrown α → Prog RunState Thrown α
  | .ok a => return a
  | .error e => Prog.fail e

def headersSent : Thrown := .error "Cannot set headers after they are sent to the client"

def respond (answer : Answer) : Prog RunState Thrown Unit := do
  let answers ← Prog.reads fun s => s.answers
  Prog.writes fun s => { s with answers := s.answers ++ [answer] }
  if answers.isEmpty then return () else Prog.fail headersSent

def extractTokenFromHeader (req : RunRequest) : Option String :=
  match req.authorization.map fun a => a.splitOn " " with
  | some ("Bearer" :: rest) => rest.head?
  | _ => none

def validateToken (token : String) : Prog RunState Thrown JwtPayload :=
  if !env.auth then return {}
  else match env.jwtDecode token with
    | none => Prog.fail (.error "Invalid token")
    | some kid => do
      let pubKey ← awaited (env.getSigningKey kid)
      if pubKey = "" then Prog.fail (.error "No key in header")
      else ofExcept (env.jwtVerify token pubKey)

def findDbId (lookup : MetaQuery) (username dbAlias : String) : Prog RunState Thrown String := do
  awaited (env.metaQuery lookup)
  match (env.userDatabases lookup).find? fun d =>
      d.iasqlUserId == username && d.dbAlias == dbAlias with
  | some d => return d.pgName
  | none => Prog.fail (.error s!"dbAlias {dbAlias} not found")

def grantGroupRole : Nat → Prog RunState Thrown Unit
  | 0 => return ()
  | maxTries + 1 => do
    match ← (awaited (env.metaQuery (.grant maxTries))).attempt with
    | .ok _ => return ()
    | .error _ => grantGroupRole maxTries

def usernameAndEmail (tokenInfo : JwtPayload) : Except Thrown (String × String) :=
  if env.auth then
    match tokenInfo.sub with
    | none => .error (.error "No username found on auth token")
    | some sub => .ok (sub, tokenInfo.email.getD "hello@iasql.com")
  else .ok (env.iasqlUid, s!"hello+{env.iasqlUid}@iasql.com")

def grantOnDatabase (username dbAlias : String) : Prog RunState Thrown Unit := do
  let _ ← findDbId env .getUserDataLookup username dbAlias
  grantGroupRole env 10

def getUserData (tokenInfo : JwtPayload) (dbAlias : String) : Prog RunState Thrown UserData := do
  let (username, email) ← ofExcept (usernameAndEmail env tokenInfo)
  awaited (env.metaQuery .role)
  Prog.runIf (dbAlias != "iasql_metadata") (grantOnDatabase env username dbAlias)
  return { username, password := env.password, email }

def hasPaid (uid : String) (session : CheckoutSession) : Bool :=
  session.customer && session.status == "complete" &&
    session.clientReferenceId == some (conformUidToStripe uid)

def findSession (uid : String) : List CheckoutSession → Prog RunState Thrown Bool
  | [] => do
    awaited env.sessionsEnd
    return false
  | session :: rest => do
    awaited (.returned ())
    if hasPaid uid session then return true else findSession uid rest

def isCustomer (uid email : String) : Prog RunState Thrown Bool :=
  match env.stripe with
  | none => return true
  | some stripe =>
    if stripe.whitelistedDomains.any fun d => d.toList.isSuffixOf email.toList then return true
    else findSession env uid env.sessions

def interruption (sql : String) : Answer :=
  .interrupted (s!"Connection interruption while executing query {sql}\n" ++
    s!"Please provide this error ID when reporting this bug: {env.errorId}")

def newClient (n : Nat) (sql : String) : Prog RunState Thrown Unit :=
  Prog.writes fun s => { s with
    pending := s.pending ++ (env.interruptions n).map fun delay => (delay, interruption env sql) }

def execute (n : Nat) (dbId statement : String) : Prog RunState Thrown QueryRes := do
  Prog.writes fun s => { s with executed := s.executed ++ [(dbId, statement)] }
  awaited (env.query n)

def runStatement (sql dbId : String) (n : Nat) (stmt : Stmt) :
    Prog RunState Thrown (String × QueryRes) := do
  newClient env n sql
  awaited (env.connect n)
  let statement ← ofExcept (env.deparse stmt)
  let queryRes ← (execute env n dbId statement).lastly (awaited (env.close n))
  return (statement, queryRes)

def runStatements (sql dbId : String) : Nat → List Stmt →
    Prog RunState Thrown (List (String × QueryRes))
  | _, [] => return []
  | n, stmt :: rest => do
    let t ← runStatement env sql dbId n stmt
    let ts ← runStatements sql dbId (n + 1) rest
    return t :: ts

def statementOutput : String × QueryRes → StatementOutput
  | (statement, .text result) => .text statement result
  | (statement, .result command rowCount rows fields) =>
    match rows, rowCount with
    | some [], some n =>
      if command != "SELECT" then .affected statement n else .rows statement [] fields
    | some rows, _ => .rows statement rows fields
    | none, _ => .error statement "unexpected result: [object Object]"

def targetDatabase (dbAlias username : String) : Prog RunState Thrown String :=
  if dbAlias = "iasql_metadata" then return dbAlias
  else findDbId env .runSqlLookup username dbAlias

def runSql (sql dbAlias username : String) : Prog RunState Thrown (List StatementOutput) := do
  let dbId ← targetDatabase env dbAlias username
  let stmts ← ofExcept (env.parse sql)
  let out ← runStatements env sql dbId 0 stmts
  return out.map statementOutput

def refuse (isCust : Bool) (username : String) : Prog RunState Thrown Unit :=
  if isCust then return ()
  else respond (.forbidden "User is not a stripe customer"
    ((env.stripe.elim "undefined" (·.paymentLink)) ++
      s!"?client_reference_id={conformUidToStripe username}"))

def handle (req : RunRequest) : Prog RunState Thrown (List StatementOutput) := do
  let tokenInfo ← validateToken env ((extractTokenFromHeader req).getD "")
  match req.body with
  | none => Prog.fail (.error "TypeError")
  | some (dbAlias, sql) => do
    let user ← getUserData env tokenInfo dbAlias
    let isCust ← isCustomer env user.username user.email
    refuse env isCust user.username
    runSql env sql dbAlias user.username

-- the first of the handler and the timer that ends decides what run answers
def settle (o : Outcome Thrown (List StatementOutput)) (s : RunState) : RunState :=
  if s.finished then s
  else
    let own := match o with
      | .returned out =>
        if s.answers.isEmpty then [.output out]
        else [.output out, .unauthorized (headersSent.message.getD "")]
      | .thrown e => [.unauthorized (e.message.getD "Unknown error")]
      | .diverged => [.unauthorized timeoutMessage]
    { s with finished := true, answers := s.answers ++ own }

def run (req : RunRequest) : RunState :=
  let (o, s) := handle env req { timer := env.timeout }
  let s := settle o s
  { s with answers := s.answers ++ s.pending.map (·.2), pending := [] }

end Endpoint

end Iasql.Dashboard
