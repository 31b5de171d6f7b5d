import Mathlib.Data.List.Infix
import Iasql.Presence
import Iasql.Json

namespace Iasql.Aws

open Program Prog OrderedMap

section Text

def includes (sub s : String) : Bool := s.toList.tails.any sub.toList.isPrefixOf

def endsWith (s suffix : String) : Bool := suffix.toList.isSuffixOf s.toList

def generateId (fields : List String) : String := String.ofList ("|".toList.intercalate (fields.map String.toList))

def truthy (s : Option String) : Bool := (s.getD "") != ""

def field (key : String) : JsVal → JsVal
  | .obj fields => (find key fields).getD .null
  | _ => .null

def tagsOf (tagList : List (Option String × Option String)) : Option (List (String × String)) :=
  if tagList.isEmpty then none
  else some (ofList (tagList.filterMap fun t =>
    if truthy t.1 && truthy t.2 then some (t.1.getD "", t.2.getD "") else none))

theorem truthy_some {s : Option String} (h : truthy s = true) : ∃ n, s = some n := by
  cases s with
  | none => cases h
  | some n => exact ⟨n, rfl⟩

theorem includes_iff {t s : String} : includes t s = true ↔ t.toList <:+: s.toList := by
  rw [includes, List.any_eq_true, List.infix_iff_prefix_suffix]
  refine exists_congr fun u => ?_
  rw [List.mem_tails, List.isPrefixOf_iff_prefix, and_comm]

theorem includes_append_left {t s : String} (h : includes t s = true) (u : String) : includes t (s ++ u) = true := by
  rw [includes_iff, String.toList_append]
  exact (includes_iff.mp h).trans (List.infix_append [] _ _)

end Text

section Entities

structure RDS where
  dbInstanceIdentifier : Option String
  arn : Option String := none
  allocatedStorage : Option Nat := none
  availabilityZone : Option JsVal := none
  dbInstanceClass : Option String := none
  engine : Option String := none
  engineVersion : Option String := none
  masterUsername : Option String := none
  vpcSecurityGroups : List JsVal := []
  endpointAddr : Option String := none
  endpointPort : Option Nat := none
  endpointHostedZoneId : Option String := none
  backupRetentionPeriod : Nat := 1
  parameterGroup : Option JsVal := none
  dbCluster : Option JsVal := none
  tags : Option (List (String × String)) := none
  region : String
deriving DecidableEq

structure DBCluster where
  dbClusterIdentifier : String
  arn : Option String := none
  allocatedStorage : Nat
  iops : Option Nat := none
  backupRetentionPeriod : Option Nat := none
  dbClusterInstanceClass : String
  subnetGroup : Option JsVal := none
  deletionProtection : Bool := false
  engine : Option String := none
  engineVersion : Option String := none
  masterUsername : Option String := none
  port : Option Nat := none
  publiclyAccessible : Bool := false
  storageEncrypted : Bool := false
  vpcSecurityGroups : List JsVal := []
  tags : Option (List (String × String)) := none
  region : String
deriving DecidableEq

structure EndpointInterface where
  vpcEndpointId : Option String
  service : String
  policy : Option JsVal := none
  vpc : Option JsVal := none
  state : Option String := none
  subnets : List JsVal := []
  privateDnsEnabled : Bool := false
  dnsNameRecordType : Option String := none
  tags : Option (List (String × String)) := none
  region : String
deriving DecidableEq

-- settings are the columns copied as they are
structure MetricAlarm where
  alarmName : String
  alarmArn : Option String := none
  settings : JsVal := .null
  region : String
deriving DecidableEq

structure SubnetGroup where
  subnetGroupName : String
  description : Option String := none
  arn : Option String := none
  subnets : List String := []
  region : String
deriving DecidableEq

structure Repository where
  repositoryName : String
  repositoryArn : Option String := none
  registryId : Option String := none
  repositoryUri : Option String := none
  createdAt : Option Nat := none
  imageTagMutability : String := "MUTABLE"
  scanOnPush : Bool := false
  region : String
deriving DecidableEq

structure PublicRepository where
  repositoryName : String
  repositoryArn : Option String := none
  registryId : Option String := none
  repositoryUri : Option String := none
  createdAt : Option Nat := none
deriving DecidableEq

structure RepositoryImage where
  imageId : String
  imageDigest : String
  imageTag : String
  sizeInMB : Option Nat := none
  pushedAt : Option Nat := none
  registryId : Option String := none
  privateRepository : Option JsVal := none
  publicRepository : Option JsVal := none
  privateRepositoryRegion : Option String := none
deriving DecidableEq

inductive Throughput where
  | payPerRequest
  | provisioned (readCapacityUnits writeCapacityUnits : Nat)
deriving DecidableEq

structure DynamoTable where
  tableName : String
  tableClass : String := "STANDARD"
  throughput : Throughput := .payPerRequest
  tableId : Option String := none
  primaryKey : List (String × Option String) := []
  createdAt : Option Nat := none
  region : String
deriving DecidableEq

inductive Body where
  | rds (e : RDS)
  | dbCluster (e : DBCluster)
  | endpointInterface (e : EndpointInterface)
  | metricAlarm (e : MetricAlarm)
  | subnetGroup (e : SubnetGroup)
  | repository (e : Repository)
  | publicRepository (e : PublicRepository)
  | repositoryImage (e : RepositoryImage)
  | dynamoTable (e : DynamoTable)
  | other (cloudColumns : List String) (fields : JsVal)
deriving DecidableEq

-- an empty column stands for one that is falsy
def Body.cloudColumns : Body → List String
  | .rds e => [e.dbInstanceIdentifier.getD "", e.region]
  | .dbCluster e => [e.dbClusterIdentifier, e.region]
  | .endpointInterface e => [e.vpcEndpointId.getD "", e.region]
  | .metricAlarm e => [e.alarmName, e.region]
  | .subnetGroup e => [e.subnetGroupName, e.region]
  | .repository e => [e.repositoryName, e.region]
  | .publicRepository e => [e.repositoryName]
  | .repositoryImage e => [e.imageId]
  | .dynamoTable e => [e.tableName, e.region]
  | .other cloudColumns _ => cloudColumns

structure Entity where
  id : Option Nat := none
  body : Body
deriving DecidableEq

def primaryText (id : Option Nat) : String := (id.map toString).getD "undefined"

def Entity.entityId (e : Entity) : String :=
  if e.body.cloudColumns.any (· == "") then primaryText e.id else generateId e.body.cloudColumns

instance : JsRecord Entity where
  assign a b := { id := b.id.or a.id, body := b.body }
  idText e := (e.id.map toString).getD ""
  copyId a b := if a.id.getD 0 = 0 then b else { b with id := a.id }

-- an id spelled by cloud columns is no primary key
structure CloudId (id : String) : Prop where
  notPrimary : ∀ n, id ≠ primaryText n

theorem entityId_congr {a b : Entity} {id : String} (hid : CloudId id) (h : a.body = b.body)
    (hb : b.entityId = id) : a.entityId = id := by
  unfold Entity.entityId at hb ⊢
  rw [h]
  split
  · next hfalsy =>
    rw [if_pos hfalsy] at hb
    exact absurd hb.symm (hid.notPrimary b.id)
  · next htruthy => rwa [if_neg htruthy] at hb

theorem bar_not_mem_primaryText (n : Option Nat) : '|' ∉ (primaryText n).toList := by
  cases n with
  | none => decide
  | some n =>
    intro h
    have hdigit := Nat.isDigit_of_mem_toDigits (b := 10) (by decide) (by decide)
      (show '|' ∈ Nat.toDigits 10 n by simpa [primaryText] using h)
    exact absurd hdigit (by decide)

theorem cloudId_pair (name region : String) : CloudId (generateId [name, region]) := by
  refine ⟨fun n h => bar_not_mem_primaryText n ?_⟩
  rw [← h]
  simp [generateId, List.intercalate]

end Entities

section Client

structure Page (α : Type) where
  items : Option (List α)
  nextToken : Option String := none
deriving DecidableEq

variable {σ α β : Type}

-- the SDK's paginator ends with the first page that has no token
def paginate (call : Option String → Prog σ Thrown (Page α)) : Nat → Option String →
    Prog σ Thrown (List α)
  | 0, _ => diverge
  | n + 1, token => do
    let page ← call token
    match page.nextToken with
    | none => return page.items.getD []
    | some next => return page.items.getD [] ++ (← paginate call n (some next))

def paginateBuilder (call : Option String → Prog σ Thrown (Page α)) (fuel : Nat) :
    Prog σ Thrown (List α) := paginate call fuel none

def mapItems (f : α → Prog σ Thrown (Option β)) : List α → Prog σ Thrown (List β) :=
  Prog.gather fun a => do return (← f a).toList

-- what a filter of the request leaves of a page
def serverSide (shown : α → Bool) (call : Option String → Prog σ Thrown (Page α))
    (token : Option String) : Prog σ Thrown (Page α) := do
  let page ← call token
  return { page with items := page.items.map (List.filter shown) }

theorem paginate_serverSide (shown : α → Bool) (call : Option String → Prog σ Thrown (Page α))
    (n : Nat) (token : Option String) (s : σ) :
    paginate (serverSide shown call) n token s =
      (paginate call n token >>= fun items => pure (items.filter shown)) s := by
  induction n generalizing token s with
  | zero => rfl
  | succ n ih =>
    rw [paginate]
    rcases hcall : call token s with ⟨o, t⟩
    cases o with
    | thrown e =>
      have hserver : serverSide shown call token s = (.thrown e, t) := bind_of_thrown hcall
      have hlast : paginate call (n + 1) token s = (.thrown e, t) := bind_of_thrown hcall
      rw [bind_of_thrown hserver, bind_of_thrown hlast]
    | diverged =>
      have hserver : serverSide shown call token s = (.diverged, t) := bind_of_diverged hcall
      have hlast : paginate call (n + 1) token s = (.diverged, t) := bind_of_diverged hcall
      rw [bind_of_diverged hserver, bind_of_diverged hlast]
    | returned page =>
      obtain ⟨items, nextToken⟩ := page
      have hfilter : ((items.map (List.filter shown)).getD []) = (items.getD []).filter shown := by
        cases items <;> rfl
      have hserver : serverSide shown call token s =
          (.returned { items := items.map (List.filter shown), nextToken }, t) :=
        bind_of_returned hcall
      rw [bind_of_returned hserver]
      cases nextToken with
      | none =>
        have hlast : paginate call (n + 1) token s = (.returned (items.getD []), t) :=
          bind_of_returned hcall
        rw [bind_of_returned hlast]
        exact congrArg (fun xs => (Outcome.returned xs, t)) hfilter
      | some next =>
        have hmore : paginate call (n + 1) token s =
            (paginate call n (some next) >>= fun rest => pure (items.getD [] ++ rest)) t :=
          bind_of_returned hcall
        rw [bind_apply _ _ s, hmore]
        change (paginate (serverSide shown call) n (some next) >>= fun rest =>
          pure ((items.map (List.filter shown)).getD [] ++ rest)) t = _
        rw [bind_apply, ih, hfilter]
        rcases hrest : paginate call n (some next) t with ⟨o, u⟩
        cases o with
        | returned rest =>
          rw [bind_of_returned hrest, bind_of_returned hrest]
          exact congrArg (fun xs => (Outcome.returned xs, u)) (List.filter_append ..).symm
        | thrown e => rw [bind_of_thrown hrest, bind_of_thrown hrest]
        | diverged => rw [bind_of_diverged hrest, bind_of_diverged hrest]

theorem keeps_paginate {F : Frame σ} {call : Option String → Prog σ Thrown (Page α)}
    (h : ∀ token, F.Keeps (call token)) (n : Nat) (token : Option String) :
    F.Keeps (paginate call n token) := by
  induction n generalizing token with
  | zero => exact Frame.keeps_diverge
  | succ n ih =>
    refine Frame.keeps_bind (h token) ?_
    rintro ⟨items, nextToken⟩
    cases nextToken with
    | none => exact Frame.keeps_pure _
    | some next => exact Frame.keeps_bind (ih _) fun _ => Frame.keeps_pure _

theorem keeps_mapItems {F : Frame σ} {f : α → Prog σ Thrown (Option β)} {xs : List α}
    (h : ∀ x ∈ xs, F.Keeps (f x)) : F.Keeps (mapItems f xs) :=
  Frame.keeps_gather fun x hx => Frame.keeps_bind (h x hx) fun _ => Frame.keeps_pure _

theorem mem_mapItems {f : α → Prog σ Thrown (Option β)} {xs : List α} {s t : σ} {out : List β}
    (h : mapItems f xs s = (.returned out, t)) {x : α} (hx : x ∈ xs) :
    ∃ o u v, f x u = (.returned o, v) ∧ ∀ b ∈ o, b ∈ out := by
  obtain ⟨bs, u, v, hf, hsub, -⟩ :=
    Frame.gather_returned (F := Frame.ofField fun _ => ()) (fun _ _ _ => rfl) h hx
  obtain ⟨o, w, ho, hpure⟩ := bind_returned_inv hf
  cases hpure
  exact ⟨o, u, v, ho, fun b hb => hsub (by simp [Option.mem_def.mp hb])⟩

end Client

section Module

variable {W : Type}

def atStore {α : Type} (p : Prog (Store W) Thrown α) : Prog (Context W Entity) Thrown α :=
  p.within Context.store fun st c => { c with store := st }

-- what every mapper takes from the context and from other mappers
structure Provider (W : Type) where
  getEnabledAwsRegions : Prog (Store W) Thrown (List String)
  getAwsClient : Option String → Prog (Store W) Thrown Unit
  -- the read by id of the mapper of an entity
  readById : Dest → String → String → Prog (Context W Entity) Thrown (Option JsVal)
  safeParse : String → Option JsVal

namespace Provider

variable (aws : Provider W)

def findRelated (entityName id : String) : Prog (Context W Entity) Thrown (Option JsVal) := do
  match ← aws.readById .db entityName id with
  | some e => return some e
  | none => aws.readById .cloud entityName id

-- the regions are read side by side: each call may find whatever the others have left
def inRegions (body : String → Prog (Context W Entity) Thrown (List Entity)) :
    Prog (Context W Entity) Thrown (List Entity) := do
  let enabledRegions ← atStore aws.getEnabledAwsRegions
  Prog.gather body enabledRegions

def readRegion {α : Type} (list : String → Prog (Store W) Thrown (List α))
    (mapper : α → String → Prog (Context W Entity) Thrown (Option Body)) (region : String) :
    Prog (Context W Entity) Thrown (List Entity) := do
  atStore (aws.getAwsClient (some region))
  let items ← atStore (list region)
  mapItems (fun a => do return (← mapper a region).map fun body => { body }) items

-- the shape most full reads share
def listedRead {α : Type} (list : String → Prog (Store W) Thrown (List α))
    (mapper : α → String → Prog (Context W Entity) Thrown (Option Body)) :
    Prog (Context W Entity) Thrown (List Entity) := aws.inRegions (aws.readRegion list mapper)

structure Keeps (R : Frame (Store W)) : Prop where
  regions : R.Keeps aws.getEnabledAwsRegions
  client : ∀ region, R.Keeps (aws.getAwsClient region)
  byId : ∀ dest entityName id, (ctxFrame R).Keeps (aws.readById dest entityName id)

end Provider

section Reads

variable {aws : Provider W} {R : Frame (Store W)} {α : Type}
  {list : String → Prog (Store W) Thrown (List α)}
  {mapper : α → String → Prog (Context W Entity) Thrown (Option Body)}

theorem keeps_atStore {β : Type} {p : Prog (Store W) Thrown β} (h : R.Keeps p) :
    (ctxFrame R).Keeps (atStore p) := fun c => h c.store

theorem keeps_findRelated {C : Frame (Context W Entity)}
    (h : ∀ dest entityName id, C.Keeps (aws.readById dest entityName id)) (entityName id : String) :
    C.Keeps (aws.findRelated entityName id) := by
  refine Frame.keeps_bind (h .db entityName id) ?_
  rintro (_ | e)
  · exact h .cloud entityName id
  · exact Frame.keeps_pure _

theorem keeps_readRegion {C : Frame (Context W Entity)} {region : String}
    (hclient : C.Keeps (atStore (aws.getAwsClient (some region))))
    (hlist : C.Keeps (atStore (list region))) (hmapper : ∀ a, C.Keeps (mapper a region)) :
    C.Keeps (aws.readRegion list mapper region) :=
  Frame.keeps_bind hclient fun _ => Frame.keeps_bind hlist fun _ =>
    keeps_mapItems fun a _ => Frame.keeps_bind (hmapper a) fun _ => Frame.keeps_pure _

theorem keeps_listedRead {C : Frame (Context W Entity)}
    (hregions : C.Keeps (atStore aws.getEnabledAwsRegions))
    (hclient : ∀ region, C.Keeps (atStore (aws.getAwsClient region)))
    (hlist : ∀ region, C.Keeps (atStore (list region)))
    (hmapper : ∀ a region, C.Keeps (mapper a region)) : C.Keeps (aws.listedRead list mapper) :=
  Frame.keeps_bind hregions fun _ => Frame.keeps_gather fun region _ =>
    keeps_readRegion (hclient _) (hlist region) fun a => hmapper a region

theorem listedRead_returned (h : aws.Keeps R) (hlist : ∀ region, R.Keeps (list region))
    (hmapper : ∀ a region, (ctxFrame R).Keeps (mapper a region)) {c d : Context W Entity}
    {out : List Entity} (hread : aws.listedRead list mapper c = (.returned out, d)) :
    ∃ regions st, aws.getEnabledAwsRegions c.store = (.returned regions, st) ∧
      ∀ region ∈ regions, ∃ items st₁ st₂, list region st₁ = (.returned items, st₂) ∧
        R.rel st₂ d.store ∧ ∀ a ∈ items, ∃ o c₁ c₂, mapper a region c₁ = (.returned o, c₂) ∧
          ∀ body ∈ o, { body } ∈ out := by
  obtain ⟨regions, c', hregions, hgather⟩ := bind_returned_inv hread
  obtain ⟨hfst, -⟩ : (aws.getEnabledAwsRegions c.store).1 = .returned regions ∧ _ :=
    Prod.mk.inj hregions
  refine ⟨regions, _, run_eq hfst, fun region hmem => ?_⟩
  obtain ⟨es, c₁, c₂, hbody, hsub, hrel⟩ :=
    Frame.gather_returned (fun region _ => keeps_readRegion (keeps_atStore (h.client _))
      (keeps_atStore (hlist region)) fun a => hmapper a region) hgather hmem
  obtain ⟨_, c₃, -, hbody⟩ := bind_returned_inv hbody
  obtain ⟨items, c₄, hitems, hmap⟩ := bind_returned_inv hbody
  obtain ⟨hitem, rfl⟩ : (list region c₃.store).1 = .returned items ∧
      { c₃ with store := (list region c₃.store).2 } = c₄ := Prod.mk.inj hitems
  refine ⟨items, c₃.store, _, run_eq hitem, R.trans ?_ hrel, fun a ha => ?_⟩
  · exact Frame.rel_of_eq (keeps_mapItems fun a _ =>
      Frame.keeps_bind (hmapper a region) fun _ => Frame.keeps_pure _) hmap
  · obtain ⟨o, d₁, d₂, ho, hin⟩ := mem_mapItems hmap ha
    obtain ⟨o', d₃, ho', hpure⟩ := bind_returned_inv ho
    cases hpure
    refine ⟨o', d₁, d₂, ho', fun body hb => hsub (hin _ ?_)⟩
    rw [Option.mem_def.mp hb]
    rfl

end Reads

end Module

section Surroundings

variable {W : Type} {missed : W → Prop}

theorem assign_body (a b : Entity) : (JsRecord.assign a b).body = b.body := rfl

theorem copyId_body (a b : Entity) : (JsRecord.copyId a b).body = b.body := by
  change (if a.id.getD 0 = 0 then b else { b with id := a.id }).body = b.body
  split <;> rfl

-- the engine around the mapper: nothing takes a listing back or a resource out of the memo, and
-- the ORM returns the row it saved
structure Situated (aws : Provider W) (m : Mapper W Entity) (id : String) (missed : W → Prop)
    (env : Env W Entity) : Prop where
  keeps : EnvKeeps (missedFrame missed) env
  related : ∀ dest entityName id',
    (coverFrame m id missed).Keeps (aws.readById dest entityName id')
  createRow : ∀ e, (coverFrame m id missed).Keeps (m.db.createFn e)
  readRows : (coverFrame m id missed).Keeps m.db.readFn
  updateRow : ∀ e, (coverFrame m id missed).Keeps (m.db.updateFn e)
  deleteRow : ∀ e, (coverFrame m id missed).Keeps (m.db.deleteFn e)
  others : ∀ mod ∈ env.allModules, ∀ m' ∈ mod.mappers,
    m' = m ∨ m'.entityName ≠ m.entityName ∧ CrudKeeps (coverFrame m id missed) m'
  created : ∀ e c out c', m.entityId e = id → m.db.createFn e c = (.returned out, c') →
    ∀ o ∈ out, m.entityId o = id
  updated : ∀ e c out c', m.entityId e = id → m.db.updateFn e c = (.returned out, c') →
    ∀ o ∈ out, m.entityId o = id

theorem coverFrame_atStore {α : Type} {m : Mapper W Entity} {id : String}
    {p : Prog (Store W) Thrown α} (h : (missedFrame missed).Keeps p) :
    (coverFrame m id missed).Keeps (atStore p) := fun c => ⟨h c.store, .inl⟩

theorem watched_of_situated {aws : Provider W} {m : Mapper W Entity} {id : String}
    {env : Env W Entity} (hid : CloudId id) (hm : m.entityId = Entity.entityId)
    (hreads : ReadsOrMisses m id missed) (hread : (coverFrame m id missed).Keeps m.cloud.readFn)
    (hs : Situated aws m id missed env) : Watched m id missed env where
  keyed :=
    { assign := fun a b hb => by
        rw [hm] at hb ⊢
        exact entityId_congr hid (assign_body a b) hb
      copyId := fun a b hb => by
        rw [hm] at hb ⊢
        exact entityId_congr hid (copyId_body a b) hb
      created := hs.created
      updated := hs.updated }
  reads := hreads
  keeps := hs.keeps
  cruds mod hmod m' hm' := by
    rcases hs.others mod hmod m' hm' with rfl | hother
    · exact
        { create := hs.createRow
          read := fun dest => by
            cases dest with
            | db => exact hs.readRows
            | cloud => exact hread
          update := hs.updateRow
          delete := hs.deleteRow }
    · exact hother.2
  unique mod hmod m' hm' hname := (hs.others mod hmod m' hm').resolve_right fun hother =>
    hother.1 hname

end Surroundings

end Iasql.Aws
