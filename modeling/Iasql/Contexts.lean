import Mathlib.Logic.Function.Basic
import Iasql.Calculus.OrderedMap
import Iasql.Calculus.Runs
import Iasql.DefaultRegion

namespace Iasql.Contexts

open AwsAccount OrderedMap Runs

section Accounts

structure AwsCredentials where
  accessKeyId : Option String
  secretAccessKey : String
  sessionToken : Option String := none
deriving DecidableEq

structure SshCredentials where
  name : String
  hostname : String
  port : Nat
  username : String
  privateKey : String
  keyPassphrase : Option String := none
deriving DecidableEq

-- what the functions of the contexts read of a database
structure Accounts where
  awsRegions : List AwsRegion := []
  awsCredentials : List AwsCredentials := []
  sshCredentials : List SshCredentials := []
deriving DecidableEq

-- an AWS client keeps its region and its keys, without an empty token
inductive Client where
  | aws (region : String) (credentials : AwsCredentials)
  | ssh (credentials : SshCredentials)
deriving DecidableEq

def awsClientOf (region : String) (awsCreds : AwsCredentials) : Client :=
  .aws region { awsCreds with sessionToken := awsCreds.sessionToken.filter (· != "") }

-- findOne without an order: any row that the condition selects
def isFound {α : Type} [DecidableEq α] (p : α → Bool) (rows : List α) : Option α → Bool
  | some row => rows.contains row && p row
  | none => !rows.any p

end Accounts

section Contexts

abbrev Addr := Nat

inductive ContextValue where
  | function (name : String)
  | object (addr : Addr)
deriving DecidableEq

structure Module where
  name : String
  version : String
  context : List (String × ContextValue) := []
deriving DecidableEq

abbrev Cache := List (String × Client)

structure Heap where
  objects : Addr → Cache
  next : Addr

abbrev Fields := List (String × ContextValue)

def cloneDeep (h : Heap) (addr : Addr) : Addr × Heap :=
  (h.next, { objects := Function.update h.objects h.next (h.objects addr), next := h.next + 1 })

def addField (name : String) (v : ContextValue) (c : Fields × Heap) : Fields × Heap :=
  match v with
  | .function f => (put name (.function f) c.1, c.2)
  | .object addr => (put name (.object (cloneDeep c.2 addr).1) c.1, (cloneDeep c.2 addr).2)

def addModule (c : Fields × Heap) : List (String × ContextValue) → Fields × Heap
  | [] => c
  | (name, v) :: rest => addModule (addField name v c) rest

def getContext (allModules : List Module) (c : Fields × Heap) :
    List String → Except String (Fields × Heap)
  | [] => .ok c
  | name :: moduleNames =>
    match allModules.find? fun m => m.name ++ "@" ++ m.version == name with
    | none => .error s!"This should be impossible. Cannot find module {name}"
    | some mod => getContext allModules (addModule c mod.context) moduleNames

end Contexts

section Machine

abbrev DbId := String

-- opened is kept for the statement only: how often the accounts had changed by then
structure Context where
  orm : DbId
  fields : Fields
  opened : Nat
deriving DecidableEq

inductive Request where
  | getAwsClient (selectedRegion : Option String)
  | getSshClient (serverName : String)
deriving DecidableEq

inductive Stage where
  | findRegion
  | findAws (region : String)
  | findSsh (serverName : String)
  | done (client : Client)
  | failed (message : String)
deriving DecidableEq

structure Running where
  context : Context
  request : Request
  stage : Stage
deriving DecidableEq

-- η names the requests to /rpc, ι the calls that mappers make in them; past has the accounts that
-- have changed since, the oldest first
structure State (η ι : Type) where
  heap : Heap
  accounts : DbId → Accounts
  past : DbId → List Accounts := fun _ => []
  handlers : η → Option Context := fun _ => none
  calls : ι → Option Running := fun _ => none

inductive Action (η ι : Type) where
  | rpc (h : η) (dbId : DbId) (moduleNames : List String)
  | close (h : η)
  | call (i : ι) (h : η) (request : Request)
  | foundRegion (i : ι) (row : Option AwsRegion)
  | foundAws (i : ι) (row : Option AwsCredentials)
  | foundSsh (i : ι) (row : Option SshCredentials)
  | queryFails (i : ι) (message : String)
  -- a user writes to the tables
  | edit (dbId : DbId) (accounts : Accounts)

variable {η ι : Type} [DecidableEq η] [DecidableEq ι]

def Context.cache (c : Context) (field : String) : Option Addr :=
  match find field c.fields with
  | some (.object addr) => some addr
  | _ => none

-- up to the first await: what the cache has is returned, and an object that is missing raises
def lookup (heap : Heap) (c : Context) (field key : String) (waiting : Stage) : Stage :=
  match c.cache field with
  | none => .failed "TypeError"
  | some addr =>
    match find key (heap.objects addr) with
    | some client => .done client
    | none => waiting

-- a context without the function has no such module installed
def Context.calls (c : Context) (function : String) (stage : Stage) : Stage :=
  match find function c.fields with
  | some (.function _) => stage
  | _ => .failed "TypeError"

def begin (heap : Heap) (c : Context) : Request → Stage
  | .getAwsClient (some region) =>
    c.calls "getAwsClient" (lookup heap c "awsClient" region (.findAws region))
  | .getAwsClient none => c.calls "getAwsClient" .findRegion
  | .getSshClient serverName =>
    c.calls "getSshClient" (lookup heap c "sshClients" serverName (.findSsh serverName))

-- the new client is stored in the object of the context and read back from there
def store (heap : Heap) (c : Context) (field key : String) (client : Client) : Stage × Heap :=
  match c.cache field with
  | none => (.failed "TypeError", heap)
  | some addr => (.done client,
      { heap with objects := Function.update heap.objects addr (put key client (heap.objects addr)) })

def State.setStage (s : State η ι) (i : ι) (r : Running) (stage : Stage) : ι → Option Running :=
  Function.update s.calls i (some { r with stage })

def step (allModules : List Module) (s : State η ι) : Action η ι → Option (State η ι)
  | .rpc h dbId moduleNames =>
    match getContext allModules ([], s.heap) moduleNames with
    | .error _ => some s
    | .ok (fields, heap) => some { s with
        heap
        handlers := Function.update s.handlers h
          (some { orm := dbId, fields, opened := (s.past dbId).length }) }
  | .close h => some { s with handlers := Function.update s.handlers h none }
  | .call i h request =>
    match s.handlers h, s.calls i with
    | some context, none => some { s with
        calls := Function.update s.calls i
          (some { context, request, stage := begin s.heap context request }) }
    | _, _ => none
  | .foundRegion i row =>
    match s.calls i with
    | some r =>
      match r.stage with
      | .findRegion =>
        if isFound (·.isDefault) (s.accounts r.context.orm).awsRegions row then
          let region := (row.map (·.region)).getD "us-east-1"
          some { s with
            calls := s.setStage i r (lookup s.heap r.context "awsClient" region (.findAws region)) }
        else none
      | _ => none
    | none => none
  | .foundAws i row =>
    match s.calls i with
    | some r =>
      match r.stage with
      | .findAws region =>
        if isFound (·.accessKeyId.isSome) (s.accounts r.context.orm).awsCredentials row then
          match row with
          | none => some { s with calls := s.setStage i r (.failed "No credentials found") }
          | some awsCreds =>
            let (stage, heap) := store s.heap r.context "awsClient" region (awsClientOf region awsCreds)
            some { s with heap, calls := s.setStage i r stage }
        else none
      | _ => none
    | none => none
  | .foundSsh i row =>
    match s.calls i with
    | some r =>
      match r.stage with
      | .findSsh serverName =>
        if isFound (·.name == serverName) (s.accounts r.context.orm).sshCredentials row then
          match row with
          | none => some { s with calls := s.setStage i r (.failed "No credentials found") }
          | some creds =>
            let (stage, heap) := store s.heap r.context "sshClients" serverName (.ssh creds)
            some { s with heap, calls := s.setStage i r stage }
        else none
      | _ => none
    | none => none
  | .queryFails i message =>
    match s.calls i with
    | some r =>
      match r.stage with
      | .findRegion | .findAws _ | .findSsh _ =>
        some { s with calls := s.setStage i r (.failed message) }
      | _ => none
    | none => none
  | .edit dbId accounts => some { s with
      accounts := Function.update s.accounts dbId accounts
      past := Function.update s.past dbId (s.past dbId ++ [s.accounts dbId]) }

end Machine

end Iasql.Contexts
